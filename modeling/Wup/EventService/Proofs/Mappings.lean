/-
The mappings that other services keep beside the events.

Three kinds of records share one database, each under keys of its own kind
(`familyKey`): a platform's name has no colon, so a key belongs to one
platform and one name (`familyKey_inj`), and to one kind. What a key holds
is therefore what was written last for its kind, platform and name
(`lookup_run`), whatever the event service stores in between; and it reads
back, since mappings are made of texts (`mappings_serve`).
-/
import Wup.EventService.Proofs.Service

-- =============================================================== read back

namespace Wup.ExternalServices

theorem ConditionMapping.ofValue_toValue (m : ConditionMapping) :
    ConditionMapping.ofValue m.toValue = some m := by
  unfold ConditionMapping.ofValue ConditionMapping.toValue
  refine bind_structFields ?_ ?_ fun field hfield => ?_
  · rfl
  · decide
  simp only [List.forall_mem_cons] at hfield
  have hids : readVec readString
      (.arr (.ofElems (m.clobTokenIds.map .str))) = some m.clobTokenIds := by
    refine readVec_ofElems ?_ _
    exact fun _ => rfl
  simp [hfield, readString, hids]

theorem MarketSlugMapping.ofValue_toValue (m : MarketSlugMapping) :
    MarketSlugMapping.ofValue m.toValue = some m := by
  unfold MarketSlugMapping.ofValue MarketSlugMapping.toValue
  refine bind_structFields ?_ ?_ fun field hfield => ?_
  · rfl
  · decide
  simp only [List.forall_mem_cons] at hfield
  simp [hfield, readString]

theorem ConditionMapping.printable {number : List Char → Option Json.Number}
    (m : ConditionMapping) : Json.Node.Printable number 2 m.toValue := by
  have hids : Json.Node.Printable number 1
      (.arr (.ofElems (m.clobTokenIds.map .str))) :=
    .vec fun _ _ => .str _
  refine .record (by simp) ?_
  simp only [List.forall_mem_cons]
  exact ⟨.str _, .str _, hids, nofun⟩

theorem MarketSlugMapping.printable
    {number : List Char → Option Json.Number} (m : MarketSlugMapping) :
    Json.Node.Printable number 1 m.toValue := by
  refine .record (by simp) ?_
  simp only [List.forall_mem_cons]
  exact ⟨.str _, .str _, .str _, .str _, nofun⟩

end Wup.ExternalServices

namespace Wup.EventService

open ExternalServices
open SharedRedisClient

variable {J : SerdeJson} {texts : ErrorTexts} {server : RedisServer}
  {s s' : Service} {action : ServiceAction} {actions : List ServiceAction}

-- ==================================================================== keys

/-- A key of a kind, for a platform and a name. -/
def familyKey (kind platform name : String) : String :=
  kind ++ platform ++ ":" ++ name

theorem toList_familyKey (kind platform name : String) :
    (familyKey kind platform name).toList
      = kind.toList ++ (platform.toList ++ ':' :: name.toList) := by
  simp [familyKey]

/-- A key of a kind is that of one platform and one name. -/
theorem familyKey_inj {kind : String} {p q : Platform}
    {name name' : String}
    (h : familyKey kind p.name name = familyKey kind q.name name') :
    p = q ∧ name = name' := by
  have hlist := congrArg String.toList h
  rw [toList_familyKey, toList_familyKey] at hlist
  obtain ⟨hplatform, hname⟩ := append_colon_inj
    (fun hm => (p.plain ':' hm).1 rfl) (fun hm => (q.plain ':' hm).1 rfl)
    (List.append_cancel_left hlist)
  exact ⟨Platform.ext_name (String.toList_inj.1 hplatform),
    String.toList_inj.1 hname⟩

/-- Keys of kinds that begin differently. -/
theorem familyKey_ne {kind kind' : String} {c d : Char} {cs ds : List Char}
    (hkind : kind.toList = c :: cs) (hkind' : kind'.toList = d :: ds)
    (hcd : c ≠ d) (platform name platform' name' : String) :
    familyKey kind platform name ≠ familyKey kind' platform' name' := by
  intro h
  have hlist := congrArg String.toList h
  rw [toList_familyKey, toList_familyKey, hkind, hkind', List.cons_append,
    List.cons_append] at hlist
  exact hcd (List.cons.inj hlist).1

-- ================================================================== a step

/-- What an action writes under a key that is no event's. -/
def written (J : SerdeJson) (key : String) : ServiceAction → Option String
  | .storeCondition platform conditionId mapping =>
      if key = conditionKey platform conditionId then
        some (J.toString mapping.toValue)
      else none
  | .storeMarketSlug platform slug mapping =>
      if key = marketSlugKey platform slug then
        some (J.toString mapping.toValue)
      else none
  | _ => none

/-- The key is that of no event. -/
def NoEvent (key : String) : Prop :=
  ∀ platform slug, key ≠ eventKey platform slug

theorem lookup_fetchAndStore {key : String} (hkey : NoEvent key)
    (db : Database) (platform slug : String) (reply : HttpReply)
    (now : Int) :
    (fetchAndStore J texts db platform slug reply now).1.lookup key
      = db.lookup key := by
  unfold fetchAndStore
  cases PolymarketClient.fetchEventData J texts slug reply now with
  | error e => rfl
  | ok data =>
      show (storeEvent J db platform slug data).lookup key = _
      unfold storeEvent
      rw [HashMap.lookup_insert', if_neg (hkey platform slug)]

theorem lookup_refreshEvent {key : String} (hkey : NoEvent key)
    (db : Database) (eventKey : String) (reply : HttpReply) (now : Int) :
    (refreshEvent J texts db eventKey reply now).lookup key
      = db.lookup key := by
  unfold refreshEvent
  cases splitOnce eventKey with
  | none => rfl
  | some parts =>
      obtain ⟨platform, slug⟩ := parts
      simp only []
      split
      · rfl
      · exact lookup_fetchAndStore hkey ..

/-- What a step does to such a key. -/
theorem lookup_step {key : String} (hkey : NoEvent key)
    (h : s.step J texts server action = some s') :
    s'.db.lookup key = (written J key action).or (s.db.lookup key) := by
  cases action with
  | initial slug reply now =>
      rw [← Option.some.inj h]
      exact lookup_fetchAndStore hkey ..
  | refresh platform slug reply now =>
      rw [← Option.some.inj h, refreshEventHandler_fst]
      show _ = s.db.lookup key
      split
      · exact lookup_fetchAndStore hkey ..
      · rfl
  | list =>
      obtain ⟨-, hafter⟩ := Option.ite_none_right_eq_some.1 h
      rw [← Option.some.inj hafter]
      rfl
  | next reply now =>
      obtain ⟨db, pending, history⟩ := s
      cases pending with
      | nil => cases h
      | cons eventKey pending =>
          rw [← Option.some.inj h]
          exact lookup_refreshEvent hkey ..
  | storeCondition platform conditionId mapping =>
      rw [← Option.some.inj h]
      have hwritten : written J key
            (.storeCondition platform conditionId mapping)
          = if key = conditionKey platform conditionId then
              some (J.toString mapping.toValue)
            else none := rfl
      unfold storeConditionMapping
      rw [hwritten, HashMap.lookup_insert']
      split <;> rfl
  | storeMarketSlug platform slug mapping =>
      rw [← Option.some.inj h]
      have hwritten : written J key (.storeMarketSlug platform slug mapping)
          = if key = marketSlugKey platform slug then
              some (J.toString mapping.toValue)
            else none := rfl
      unfold storeMarketSlugMapping
      rw [hwritten, HashMap.lookup_insert']
      split <;> rfl

-- ================================================================= the run

/-- What was written last for a platform and a name. -/
def lastWrite {α : Type}
    (writes : ServiceAction → Option (String × String × α))
    (platform name : String) (actions : List ServiceAction) : Option α :=
  actions.reverse.findSome? fun action =>
    (writes action).bind fun w =>
      if w.1 = platform ∧ w.2.1 = name then some w.2.2 else none

theorem lastWrite_concat {α : Type}
    (writes : ServiceAction → Option (String × String × α))
    (platform name : String) (actions : List ServiceAction)
    (action : ServiceAction) :
    lastWrite writes platform name (actions ++ [action])
      = ((writes action).bind fun w =>
          if w.1 = platform ∧ w.2.1 = name then some w.2.2 else none).or
        (lastWrite writes platform name actions) := by
  unfold lastWrite
  rw [List.reverse_append, List.reverse_singleton, List.singleton_append,
    List.findSome?_cons]
  cases (writes action).bind fun w =>
      if w.1 = platform ∧ w.2.1 = name then some w.2.2 else none with
  | none => rfl
  | some a => rfl

/-- A kind of records: its keys are no events', and what an action writes
under them is what it writes of the kind. -/
structure Family (J : SerdeJson) (kind : String) {α : Type}
    (write : α → String)
    (writes : ServiceAction → Option (String × String × α)) : Prop where
  noEvent : ∀ platform name, NoEvent (familyKey kind platform name)
  written : ∀ action platform name,
    written J (familyKey kind platform name) action
      = (writes action).bind fun w =>
          if familyKey kind platform name = familyKey kind w.1 w.2.1 then
            some (write w.2.2)
          else none

/-- After any run a key of a kind holds what was written last for its
platform and name. -/
theorem lookup_run {kind : String} {α : Type} {write : α → String}
    {writes : ServiceAction → Option (String × String × α)}
    (hfamily : Family J kind write writes)
    (hplain : ∀ action ∈ actions, ∀ w, writes action = some w →
      ∃ p : Platform, p.name = w.1)
    (hrun : Service.run J texts server .start actions = some s)
    (p : Platform) (name : String) :
    s.db.lookup (familyKey kind p.name name)
      = (lastWrite writes p.name name actions).map write := by
  induction actions using List.reverseRecOn generalizing s with
  | nil =>
      obtain rfl := Option.some.inj hrun
      rfl
  | append_singleton actions action ih =>
      unfold Service.run at hrun ih
      rw [List.foldlM_append] at hrun
      obtain ⟨s₁, hs₁, hlast⟩ := Option.bind_eq_some_iff.1 hrun
      obtain ⟨s₂, hstep, hs₂⟩ := Option.bind_eq_some_iff.1 hlast
      obtain rfl := Option.some.inj hs₂
      have hold := ih (fun a ha => hplain a (List.mem_append_left _ ha)) hs₁
      rw [lookup_step (hfamily.noEvent p.name name) hstep,
        hfamily.written, hold, lastWrite_concat, Option.map_or]
      cases hw : writes action with
      | none => rfl
      | some w =>
          obtain ⟨q, hq⟩ := hplain action
            (List.mem_append_right _ List.mem_cons_self) w hw
          have hsame : familyKey kind p.name name = familyKey kind w.1 w.2.1
              ↔ w.1 = p.name ∧ w.2.1 = name := by
            rw [← hq]
            constructor
            · intro heq
              obtain ⟨hpq, hname⟩ := familyKey_inj heq
              exact ⟨congrArg Platform.name hpq.symm, hname.symm⟩
            · rintro ⟨hpq, hname⟩
              rw [hpq, hname]
          simp only [Option.bind_some]
          by_cases hmatch : w.1 = p.name ∧ w.2.1 = name
          · rw [if_pos (hsame.2 hmatch), if_pos hmatch]
            rfl
          · rw [if_neg (mt hsame.1 hmatch), if_neg hmatch]
            rfl

-- =============================================================== the kinds

def conditionWrite :
    ServiceAction → Option (String × String × ConditionMapping)
  | .storeCondition platform conditionId mapping =>
      some (platform, conditionId, mapping)
  | _ => none

def marketSlugWrite :
    ServiceAction → Option (String × String × MarketSlugMapping)
  | .storeMarketSlug platform slug mapping => some (platform, slug, mapping)
  | _ => none

theorem conditions (J : SerdeJson) :
    Family J "condition:" (fun m : ConditionMapping => J.toString m.toValue)
      conditionWrite where
  noEvent platform name platform' slug :=
    familyKey_ne rfl rfl (by decide) platform name platform' slug
  written action platform name := by
    cases action with
    | storeCondition platform' conditionId mapping => rfl
    | storeMarketSlug platform' slug mapping =>
        have hne : familyKey "condition:" platform name
            ≠ marketSlugKey platform' slug :=
          familyKey_ne rfl rfl (by decide) platform name platform' slug
        show (if familyKey "condition:" platform name
              = marketSlugKey platform' slug then
            some (J.toString mapping.toValue)
          else none) = none
        exact if_neg hne
    | _ => rfl

theorem marketSlugs (J : SerdeJson) :
    Family J "market:" (fun m : MarketSlugMapping => J.toString m.toValue)
      marketSlugWrite where
  noEvent platform name platform' slug :=
    familyKey_ne rfl rfl (by decide) platform name platform' slug
  written action platform name := by
    cases action with
    | storeCondition platform' conditionId mapping =>
        have hne : familyKey "market:" platform name
            ≠ conditionKey platform' conditionId :=
          familyKey_ne rfl rfl (by decide) platform name platform'
            conditionId
        show (if familyKey "market:" platform name
              = conditionKey platform' conditionId then
            some (J.toString mapping.toValue)
          else none) = none
        exact if_neg hne
    | storeMarketSlug platform' slug mapping => rfl
    | _ => rfl

/-- A record that is read back as it was written. -/
theorem getRecord_of_lookup {α : Type} {toValue : α → Json.Value}
    {ofValue : Json.Value → Option α} {db : Database} {key : String}
    {o : Option α}
    (hlookup : db.lookup key = o.map fun a => J.toString (toValue a))
    (hread : ∀ a, (J.fromStr (J.toString (toValue a))).bind ofValue
      = some a) :
    getRecord J texts ofValue db key = .ok o := by
  unfold getRecord
  rw [hlookup]
  cases o with
  | none => rfl
  | some a =>
      simp only [Option.map_some, hread]

/-- In any run of the event service and of the services beside it, the
mapping found for a platform and a name is the one stored last for them,
of either kind, and none where none was. -/
theorem mappings_serve (hJ : J.Lawful)
    (hrun : Service.run J texts server .start actions = some s)
    (hconditions : ∀ action ∈ actions, ∀ w, conditionWrite action = some w →
      ∃ p : Platform, p.name = w.1)
    (hslugs : ∀ action ∈ actions, ∀ w, marketSlugWrite action = some w →
      ∃ p : Platform, p.name = w.1)
    (p : Platform) (name : String) :
    getConditionMapping J texts s.db p.name name
        = .ok (lastWrite conditionWrite p.name name actions)
      ∧ conditionMappingExists s.db p.name name
        = (lastWrite conditionWrite p.name name actions).isSome
      ∧ getMarketBySlug J texts s.db p.name name
        = .ok (lastWrite marketSlugWrite p.name name actions) := by
  have hcondition : s.db.lookup (conditionKey p.name name)
      = (lastWrite conditionWrite p.name name actions).map
          fun m => J.toString m.toValue :=
    lookup_run (conditions J) hconditions hrun p name
  have hslug : s.db.lookup (marketSlugKey p.name name)
      = (lastWrite marketSlugWrite p.name name actions).map
          fun m => J.toString m.toValue :=
    lookup_run (marketSlugs J) hslugs hrun p name
  refine ⟨getRecord_of_lookup hcondition fun m => ?_, ?_,
    getRecord_of_lookup hslug fun m => ?_⟩
  · rw [hJ.fromStr_of_printable m.printable (by decide), Option.bind_some]
    exact m.ofValue_toValue
  · unfold conditionMappingExists
    rw [hcondition, Option.isSome_map]
  · rw [hJ.fromStr_of_printable m.printable (by decide), Option.bind_some]
    exact m.ofValue_toValue

/-- Two kinds under one platform and one name. -/
def twoMappings : List ServiceAction :=
  [.storeCondition "polymarket" "x" ⟨"x", "1", ["a"]⟩,
    .storeMarketSlug "polymarket" "x" ⟨"x", "2", "c", "m"⟩]

theorem mappings_serve_one_name :
    ∃ s, Service.run compactJson ⟨id, id⟩ simpleServer .start twoMappings
        = some s
      ∧ getConditionMapping compactJson ⟨id, id⟩ s.db "polymarket" "x"
        = .ok (some ⟨"x", "1", ["a"]⟩)
      ∧ getMarketBySlug compactJson ⟨id, id⟩ s.db "polymarket" "x"
        = .ok (some ⟨"x", "2", "c", "m"⟩) := by
  have hruns : (Service.run compactJson ⟨id, id⟩ simpleServer .start
      twoMappings).isSome = true := rfl
  obtain ⟨s, hrun⟩ := Option.isSome_iff_exists.1 hruns
  have hconditions : ∀ action ∈ twoMappings, ∀ w,
      conditionWrite action = some w → ∃ p : Platform, p.name = w.1 := by
    simp only [twoMappings, List.forall_mem_cons]
    refine ⟨fun w hw => ⟨polymarket, ?_⟩, nofun, nofun⟩
    rw [← Option.some.inj hw]
    rfl
  have hslugs : ∀ action ∈ twoMappings, ∀ w,
      marketSlugWrite action = some w → ∃ p : Platform, p.name = w.1 := by
    simp only [twoMappings, List.forall_mem_cons]
    refine ⟨nofun, fun w hw => ⟨polymarket, ?_⟩, nofun⟩
    rw [← Option.some.inj hw]
    rfl
  obtain ⟨hcondition, -, hslug⟩ := mappings_serve compactJson_lawful hrun
    hconditions hslugs polymarket "x"
  exact ⟨s, hrun, hcondition, hslug⟩

end Wup.EventService
