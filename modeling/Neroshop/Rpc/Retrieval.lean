import Neroshop.Foundation.Fallback
import Neroshop.Node.Totality
import Neroshop.Rpc.Providers
import Neroshop.Rpc.Remote
import Neroshop.Rpc.Reply

/-!
# Getting a value from other nodes

`send_get` reads what the node holds, and otherwise asks the providers that it
knows, and then those that the closest nodes name, until one replies with a
value that `validate` takes.  The requests that are sent are recorded beside the
node.
-/

namespace Neroshop.Rpc

open Neroshop.Foundation Neroshop.Node Neroshop.Routing

/-! ## The call -/

/-- A `send_get` under way. -/
structure Getting where
  node : LocalNode
  asked : List (Stage × Provider)

def Getting.start (node : LocalNode) : Getting := ⟨node, []⟩

@[simp] theorem Getting.node_start (node : LocalNode) :
    (Getting.start node).node = node := rfl

abbrev GetCall := EStateM Fault Getting

def onNode {α : Type} (call : NodeCall α) : GetCall α := fun getting =>
  match call.run getting.node with
  | .ok value node => .ok value { getting with node }
  | .error fault node => .error fault { getting with node }

section Call

variable (env : Externals) (setting : Setting) (peers : Peers)
  (moments : Stage → Provider → Moment) (key : String)

/-- A round of either loop, with the moment at which the reply is there. -/
def askNext (stage : Stage) (peer : Provider) : GetCall (Option String) := do
  modify fun getting =>
    { getting with asked := getting.asked ++ [(stage, peer)] }
  onNode (getFrom env { setting with moment := moments stage peer } peers stage
    key peer)

def askFirst (stage : Stage) : List Provider → GetCall (Option String)
  | [] => pure none
  | peer :: rest => do
      match ← askNext env setting peers moments key stage peer with
      | some value => return some value
      | none => askFirst stage rest

/-- The third option. -/
def Getting.retrieveFound : GetCall String := do
  let providers ← onNode (sendGetProviders setting peers key)
  let found ← askFirst env setting peers moments key .getFoundProvider providers
  return found.getD ""

/-- The second option, and the third behind it. -/
def Getting.retrieve : GetCall String := do
  let getting ← get
  match ← askFirst env setting peers moments key .getOwnProvider
      (getting.node.getProviders key) with
  | some value => return value
  | none => retrieveFound env setting peers moments key

/-- `Node::send_get`. -/
def Getting.sendGet : GetCall String := do
  let getting ← get
  if getting.node.hasKey key then return getting.node.getValue key
  else if getting.node.hasKeyCached setting key then
    return getting.node.getCached setting key
  else retrieve env setting peers moments key

end Call

/-! ## What a peer replies with -/

section Replies

variable (env : Externals) (peers : Peers)
  (moments : Stage → Provider → Moment) (key : String)

def repliedValue (request : Stage × Provider) : Option String :=
  match peers.answer request.1 request.2 with
  | .received (some (.response reply)) => reply.response.data.lookup "value"
  | _ => none

/-- `validate` takes the value, whatever the tables are. -/
def Passes (moment : Moment) (value : String) : Prop :=
  ∀ tables, (Node.validate env moment tables key value).1 = .ok true

/-- The peer replies with a value that passes when it arrives. -/
def Offers (request : Stage × Provider) (value : String) : Prop :=
  repliedValue peers request = some value ∧
    Passes env key (moments request.1 request.2) value

/-- It replies with a user document on which the checks do not return. -/
def OffersMalformed (request : Stage × Provider) : Prop :=
  ∃ value, repliedValue peers request = some value ∧
    MalformedValue env key value

/-- It does not reply in time, or with an error, as it does without the key. -/
def Fails (request : Stage × Provider) : Prop :=
  peers.answer request.1 request.2 = .silent ∨
    ∃ info, peers.answer request.1 request.2 = .received (some (.error info))

end Replies

/-! ## What is asked of the call -/

section Law

variable (env : Externals) (setting : Setting) (peers : Peers)
  (moments : Stage → Provider → Moment) (key : String) (node : LocalNode)

def Holds : Prop :=
  node.hasKey key = true ∨ node.hasKeyCached setting key = true

/-- The providers that the active ones of the closest nodes name. -/
def namedProviders : List Provider :=
  match node.findNode setting key maxClosestNodes with
  | .ok closest =>
      (((peers.shuffle closest).filter fun remote =>
        getStatus (setting.checkCounter remote) = .active).flatMap fun remote =>
          repliedProviders
            (peers.answer .getProviders (toProvider remote))).eraseDups
  | .error _ => []

/-- The requests to the providers that the node knows, and to those it hears of. -/
def ownRequests : List (Stage × Provider) :=
  (node.getProviders key).map (.getOwnProvider, ·)

def foundRequests : List (Stage × Provider) :=
  (namedProviders setting peers key node).map (.getFoundProvider, ·)

structure Retrieved (value : String) (after : Getting) : Prop where
  asked : ∀ request ∈ after.asked,
    request ∈ ownRequests key node ++ foundRequests setting peers key node
  source : value = "" ∨ node.tables.data.lookup key = some value ∨
    node.tables.hashTable.lookup key = some value ∨
      ∃ request ∈ after.asked, Offers env peers moments key request value
  /-- Nobody has replied with a value that passes. -/
  empty : value = "" → ∀ request ∈ after.asked, ∀ other,
    ¬ Offers env peers moments key request other
  /-- Whoever the node knows or learns of has been asked. -/
  everyone : value = "" → ¬ Holds setting key node →
    ∀ request ∈ ownRequests key node ++ foundRequests setting peers key node,
      request ∈ after.asked
  removed : ∀ request ∈ after.asked, Fails peers request →
    request.2 ∉ after.node.getProviders key

/-- The call returns, and with the right value. -/
def Retrieves : Prop :=
  ∃ value after,
    (Getting.sendGet env setting peers moments key).run (.start node) =
        .ok value after ∧
      Retrieved env setting peers moments key node value after

/-- Before each malformed reply there is one with a value that passes. -/
def PassesFirst (requests : List (Stage × Provider)) : Prop :=
  ∀ before request after, requests = before ++ request :: after →
    OffersMalformed env peers key request →
      ∃ earlier ∈ before, ∃ value,
        Offers env peers moments key earlier value

/-- The node holds the key, or a provider it knows has the value; or the closest
nodes can be found, and what they name does no harm. -/
def Retrievable : Prop :=
  Holds setting key node ∨
    PassesFirst env peers moments key (ownRequests key node) ∧
      ((∃ request ∈ ownRequests key node, ∃ value,
          Offers env peers moments key request value) ∨
        Findable node key ∧
          PassesFirst env peers moments key
            (foundRequests setting peers key node))

end Law

/-! ## Without the record -/

section Record

variable {env : Externals} {setting : Setting} {peers : Peers} {key : String}

theorem projects_onNode {α : Type} (call : NodeCall α) :
    Projects Getting.node (onNode call) call := by
  intro getting
  have hrun : (onNode call).run getting = match call.run getting.node with
      | .ok value node => .ok value { getting with node }
      | .error fault node => .error fault { getting with node } := rfl
  rw [hrun]
  cases call.run getting.node <;> rfl

theorem projects_askFirst (stage : Stage) (providers : List Provider) :
    Projects Getting.node
      (askFirst env setting peers (fun _ _ => setting.moment) key stage
        providers)
      (getFromFirst env setting peers stage key providers) := by
  induction providers with
  | nil => exact projects_pure none
  | cons peer rest ih =>
      refine projects_bind ?_ fun found => ?_
      · exact projects_modify_bind (fun _ => rfl) (projects_onNode _)
      · cases found with
        | some value => exact projects_pure _
        | none => exact ih

/-- On the node, the recorded call is `send_get` at one moment. -/
theorem projects_sendGet :
    Projects Getting.node
      (Getting.sendGet env setting peers (fun _ _ => setting.moment) key)
      (LocalNode.sendGet (peers.connect env setting) key) := by
  have hretrieve : Projects Getting.node
      (Getting.retrieve env setting peers (fun _ _ => setting.moment) key)
      (sendGet env setting peers key) := by
    refine projects_get_bind fun getting => ?_
    refine projects_bind (projects_askFirst _ _) fun found => ?_
    cases found with
    | some value => exact projects_pure _
    | none =>
        refine projects_bind (projects_onNode _) fun providers => ?_
        exact projects_bind (projects_askFirst _ _) fun found => projects_pure _
  intro getting
  have himage : (LocalNode.sendGet (peers.connect env setting) key).run
      getting.node =
        if getting.node.hasKey key then .ok (getting.node.getValue key)
          getting.node
        else if getting.node.hasKeyCached setting key then
          .ok (getting.node.getCached setting key) getting.node
        else (sendGet env setting peers key).run getting.node := rfl
  rw [himage, Getting.sendGet, run_get_bind]
  split_ifs
  · rfl
  · rfl
  · exact hretrieve getting

end Record

/-! ## One request -/

section Request

variable (env : Externals) {setting : Setting} (peers : Peers)
  (moments : Stage → Provider → Moment) (key : String)

/-- What is made of a reply, without the tables. -/
def verdict (request : Stage × Provider) : Except Fault (Option String) :=
  match repliedValue peers request with
  | none => .ok none
  | some value => do
      let valid ← (Node.validate env (moments request.1 request.2) .empty key
        value).1
      return if valid then some value else none

/-- Between the two, the requests were sent. -/
structure Asks (getting after : Getting) (requests : List (Stage × Provider)) :
    Prop where
  asked : after.asked = getting.asked ++ requests
  routingTable : after.node.routingTable = getting.node.routingTable
  providers : ∀ peer ∈ after.node.getProviders key,
    peer ∈ getting.node.getProviders key
  removed : ∀ request ∈ requests, Fails peers request →
    request.2 ∉ after.node.getProviders key

variable {env peers moments key}

theorem verdict_eq_some_iff {request : Stage × Provider} {value : String} :
    verdict env peers moments key request = .ok (some value) ↔
      Offers env peers moments key request value := by
  rw [verdict, Offers]
  cases repliedValue peers request with
  | none => exact iff_of_false nofun (by simp)
  | some replied =>
      rw [bind_eq_ok]
      constructor
      · rintro ⟨valid, hvalid, hresult⟩
        cases valid with
        | false => cases hresult
        | true =>
            obtain rfl := Option.some.inj (Except.ok.inj hresult)
            exact ⟨rfl, fun tables =>
              (validate_fst_congr _ tables _ _ _).trans hvalid⟩
      · rintro ⟨hreplied, hpasses⟩
        obtain rfl := Option.some.inj hreplied
        exact ⟨true, hpasses .empty, rfl⟩

theorem verdict_yields_iff {request : Stage × Provider} :
    Yields (verdict env peers moments key request) ↔
      ¬ OffersMalformed env peers key request := by
  rw [verdict, OffersMalformed]
  cases repliedValue peers request with
  | none => exact iff_of_true (yields_ok none) (by simp)
  | some replied =>
      simp only [Option.some.injEq, exists_eq_left']
      rw [← validate_returns (moments request.1 request.2) .empty, yields_bind]
      constructor
      · rintro ⟨valid, hvalid, -⟩
        exact ⟨valid, hvalid⟩
      · rintro ⟨valid, hvalid⟩
        exact ⟨valid, hvalid, yields_pure _⟩

theorem Asks.refl (getting : Getting) : Asks peers key getting getting [] where
  asked := (List.append_nil _).symm
  routingTable := rfl
  providers _ hpeer := hpeer
  removed _ hrequest := absurd hrequest List.not_mem_nil

theorem Asks.trans {getting middle after : Getting}
    {requests more : List (Stage × Provider)}
    (hfirst : Asks peers key getting middle requests)
    (hsecond : Asks peers key middle after more) :
    Asks peers key getting after (requests ++ more) where
  asked := by rw [hsecond.asked, hfirst.asked, List.append_assoc]
  routingTable := hsecond.routingTable.trans hfirst.routingTable
  providers peer hpeer := hfirst.providers peer (hsecond.providers peer hpeer)
  removed request hrequest hfails := by
    rcases List.mem_append.mp hrequest with hrequest | hrequest
    · exact fun hpeer => hfirst.removed request hrequest hfails
        (hsecond.providers _ hpeer)
    · exact hsecond.removed request hrequest hfails

variable (env setting peers moments key) in
/-- Who fails is taken out of the providers, and the others stay as they are. -/
theorem run_getFrom (stage : Stage) (peer : Provider) (node : LocalNode) :
    ∃ after,
      (getFrom env { setting with moment := moments stage peer } peers stage key
          peer).run node =
        ended (verdict env peers moments key (stage, peer)) after ∧
      (¬ Fails peers (stage, peer) ∧ after.routingTable = node.routingTable ∧
          after.providers = node.providers ∨
        after = stateAfter (removeProvider key peer) node) := by
  rw [getFrom, verdict, repliedValue, Fails]
  cases hanswer : peers.answer stage peer with
  | unsent => exact ⟨node, rfl, .inl ⟨by simp, rfl, rfl⟩⟩
  | silent => exact ⟨_, rfl, .inr rfl⟩
  | broken => exact ⟨node, rfl, .inl ⟨by simp, rfl, rfl⟩⟩
  | received message =>
      cases message with
      | none => exact ⟨node, rfl, .inl ⟨by simp, rfl, rfl⟩⟩
      | some message =>
          cases message with
          | notSet => exact ⟨node, rfl, .inl ⟨by simp, rfl, rfl⟩⟩
          | query sent => exact ⟨node, rfl, .inl ⟨by simp, rfl, rfl⟩⟩
          | error info => exact ⟨_, rfl, .inr rfl⟩
          | response reply =>
              dsimp only
              cases reply.response.data.lookup "value" with
              | none => exact ⟨node, rfl, .inl ⟨by simp, rfl, rfl⟩⟩
              | some value =>
                  dsimp only
                  refine ⟨{ node with tables := (Node.validate env
                    (moments stage peer) node.tables key value).2 }, ?_,
                    .inl ⟨by simp, rfl, rfl⟩⟩
                  rw [EStateM.run_bind, run_validate,
                    validate_fst_congr _ .empty node.tables key value]
                  cases (Node.validate env (moments stage peer) node.tables key
                      value).1 with
                  | error fault => rfl
                  | ok valid => cases valid <;> rfl

variable (env setting peers moments key) in
theorem run_askNext (stage : Stage) (peer : Provider) (getting : Getting) :
    ∃ after,
      (askNext env setting peers moments key stage peer).run getting =
        ended (verdict env peers moments key (stage, peer)) after ∧
      Asks peers key getting after [(stage, peer)] := by
  obtain ⟨after, hrun, hafter⟩ := run_getFrom env setting peers moments key
    stage peer getting.node
  refine ⟨⟨after, getting.asked ++ [(stage, peer)]⟩, ?_, rfl, ?_, ?_, ?_⟩
  · have hnext : (askNext env setting peers moments key stage peer).run
        getting = (onNode (getFrom env
          { setting with moment := moments stage peer } peers stage key
          peer)).run ⟨getting.node, getting.asked ++ [(stage, peer)]⟩ := rfl
    rw [hnext, EStateM.run, onNode, hrun]
    cases verdict env peers moments key (stage, peer) <;> rfl
  · rcases hafter with ⟨-, htable, -⟩ | rfl
    · exact htable
    · rfl
  · rcases hafter with ⟨-, -, hproviders⟩ | rfl
    · intro other hother
      rw [LocalNode.getProviders, hproviders] at hother
      exact hother
    · intro other hother
      rw [getProviders_removeProvider, if_pos rfl] at hother
      exact List.mem_of_mem_filter hother
  · intro request hrequest hfails
    obtain rfl := List.mem_singleton.mp hrequest
    rcases hafter with ⟨hkept, -⟩ | rfl
    · exact absurd hfails hkept
    · exact notMem_removeProvider

end Request

/-! ## A loop -/

section Loop

variable {env : Externals} {setting : Setting} {peers : Peers}
  {moments : Stage → Provider → Moment} {key : String}

variable (env setting peers moments key) in
/-- A loop asks a front of its providers, and all of them to find nothing. -/
theorem run_askFirst (stage : Stage) (providers : List Provider)
    (getting : Getting) :
    ∃ after front,
      (askFirst env setting peers moments key stage providers).run getting =
        ended ((firstRead (verdict env peers moments key)
          (providers.map (stage, ·))).map (Option.map Prod.snd)) after ∧
      Asks peers key getting after front ∧
      front <+: providers.map (stage, ·) ∧
      (firstRead (verdict env peers moments key) (providers.map (stage, ·)) =
        .ok none → front = providers.map (stage, ·)) ∧
      ∀ entry,
        firstRead (verdict env peers moments key) (providers.map (stage, ·)) =
          .ok (some entry) → entry.1 ∈ front := by
  induction providers generalizing getting with
  | nil =>
      exact ⟨getting, [], rfl, .refl getting, List.nil_prefix, fun _ => rfl,
        fun entry h => by cases h⟩
  | cons peer rest ih =>
      obtain ⟨middle, hnext, hasks⟩ := run_askNext env setting peers moments key
        stage peer getting
      have hrun : (askFirst env setting peers moments key stage
          (peer :: rest)).run getting =
        match (askNext env setting peers moments key stage peer).run getting with
        | .ok (some value) after => .ok (some value) after
        | .ok none after =>
            (askFirst env setting peers moments key stage rest).run after
        | .error fault after => .error fault after := by
        rw [askFirst, EStateM.run_bind]
        cases (askNext env setting peers moments key stage peer).run getting with
        | error fault after => rfl
        | ok value after => cases value <;> rfl
      rw [hrun, hnext, List.map_cons]
      cases hverdict : verdict env peers moments key (stage, peer) with
      | error fault =>
          have hfirst : firstRead (verdict env peers moments key)
              ((stage, peer) :: rest.map (stage, ·)) = .error fault := by
            rw [firstRead, hverdict]
            rfl
          rw [hfirst]
          refine ⟨middle, [(stage, peer)], rfl, hasks, List.prefix_append _ _,
            fun h => ?_, fun entry h => ?_⟩
          · cases h
          · cases h
      | ok value =>
          cases value with
          | some value =>
              rw [firstRead_some hverdict]
              refine ⟨middle, [(stage, peer)], rfl, hasks,
                List.prefix_append _ _, fun h => ?_, fun entry hentry => ?_⟩
              · cases h
              · obtain rfl := Option.some.inj (Except.ok.inj hentry)
                exact List.mem_singleton_self _
          | none =>
              rw [firstRead_none hverdict]
              obtain ⟨after, front, hrest, hmore, hprefix, hall, hfound⟩ :=
                ih middle
              refine ⟨after, (stage, peer) :: front, hrest, hasks.trans hmore,
                List.cons_prefix_cons.mpr ⟨rfl, hprefix⟩, fun h => ?_,
                fun entry h => ?_⟩
              · rw [hall h]
              · exact List.mem_cons_of_mem _ (hfound entry h)

end Loop

/-! ## The whole call -/

section Whole

variable {env : Externals} {setting : Setting} {peers : Peers}
  {moments : Stage → Provider → Moment} {key : String} {node : LocalNode}

theorem passesFirst_iff {requests : List (Stage × Provider)} :
    PassesFirst env peers moments key requests ↔
      Yields (firstRead (verdict env peers moments key) requests) := by
  simp only [yields_firstRead_iff, PassesFirst, verdict_yields_iff, not_not,
    verdict_eq_some_iff]

theorem not_offers_empty (request : Stage × Provider) :
    ¬ Offers env peers moments key request "" := by
  rintro ⟨-, hpasses⟩
  have hempty := hpasses .empty
  rw [Node.validate] at hempty
  split at hempty
  · cases hempty
  · cases hempty
  · next json hdocument =>
      obtain ⟨metadata, haccepted⟩ := validateDocument_eq_some.mp hdocument
      exact absurd rfl haccepted.nonempty

/-- The providers that a call learns of are those that are named. -/
theorem run_sendGetProviders (node : LocalNode) :
    (sendGetProviders setting peers key).run node =
      ended ((node.findNode setting key maxClosestNodes).map fun _ =>
        namedProviders setting peers key node) node := by
  rw [sendGetProviders, run_get_bind, namedProviders]
  cases node.findNode setting key maxClosestNodes <;> rfl

theorem Asks.retrieved_some {after : Getting}
    {requests : List (Stage × Provider)}
    (h : Asks peers key (.start node) after requests)
    (hsubset : requests ⊆
      ownRequests key node ++ foundRequests setting peers key node)
    {request : Stage × Provider} (hrequest : request ∈ requests)
    {value : String} (hoffers : Offers env peers moments key request value) :
    Retrieved env setting peers moments key node value after := by
  have hasked : after.asked = requests := h.asked
  have hnonempty : value ≠ "" := by
    rintro rfl
    exact not_offers_empty request hoffers
  exact {
    asked := fun other hother => hsubset (hasked ▸ hother)
    source := .inr (.inr (.inr ⟨request, hasked ▸ hrequest, hoffers⟩))
    empty := fun hempty => absurd hempty hnonempty
    everyone := fun hempty => absurd hempty hnonempty
    removed := fun other hother => h.removed other (hasked ▸ hother) }

theorem Asks.retrieved_none {after : Getting}
    (h : Asks peers key (.start node) after
      (ownRequests key node ++ foundRequests setting peers key node))
    (hnone : ∀ request ∈ ownRequests key node ++
        foundRequests setting peers key node,
      verdict env peers moments key request = .ok none) :
    Retrieved env setting peers moments key node "" after := by
  have hasked : after.asked =
      ownRequests key node ++ foundRequests setting peers key node := h.asked
  refine ⟨fun request hrequest => hasked ▸ hrequest, .inl rfl,
    fun _ request hrequest value hoffers => ?_, fun _ _ request hrequest => hasked ▸ hrequest,
    fun request hrequest => h.removed request (hasked ▸ hrequest)⟩
  have hverdict := hnone request (hasked ▸ hrequest)
  rw [verdict_eq_some_iff.mpr hoffers] at hverdict
  cases hverdict

/-- What the node holds is returned, and nobody is asked. -/
theorem retrieves_of_holds (h : Holds setting key node) :
    Retrieves env setting peers moments key node := by
  have hlocal (value : String)
      (hsource : value = "" ∨ node.tables.data.lookup key = some value ∨
        node.tables.hashTable.lookup key = some value) :
      Retrieved env setting peers moments key node value (.start node) := {
    asked := fun request hrequest => absurd hrequest List.not_mem_nil
    source := by
      rcases hsource with hempty | hdata | hcached
      · exact .inl hempty
      · exact .inr (.inl hdata)
      · exact .inr (.inr (.inl hcached))
    empty := fun _ request hrequest => absurd hrequest List.not_mem_nil
    everyone := fun _ hnot => absurd h hnot
    removed := fun request hrequest => absurd hrequest List.not_mem_nil }
  rw [Retrieves, Getting.sendGet, run_get_bind, Getting.node_start]
  by_cases hdata : node.hasKey key = true
  · rw [if_pos hdata]
    refine ⟨_, _, rfl, hlocal _ ?_⟩
    obtain ⟨value, hvalue⟩ := Option.isSome_iff_exists.mp hdata
    exact .inr (.inl (by rw [LocalNode.getValue, hvalue]; rfl))
  · rw [if_neg hdata, if_pos (h.resolve_left hdata)]
    refine ⟨_, _, rfl, hlocal _ ?_⟩
    rw [LocalNode.getCached]
    split
    · cases hlookup : node.tables.hashTable.lookup key with
      | none => exact .inl rfl
      | some value => exact .inr (.inr rfl)
    · exact .inl rfl

/-- Where the node does not hold the key, the call is its two loops. -/
theorem run_sendGet_of_not_holds (h : ¬ Holds setting key node) :
    (Getting.sendGet env setting peers moments key).run (.start node) =
      (Getting.retrieve env setting peers moments key).run (.start node) := by
  rw [Holds, not_or] at h
  rw [Getting.sendGet, run_get_bind, Getting.node_start, if_neg h.1,
    if_neg h.2]

theorem run_retrieve (getting : Getting) :
    (Getting.retrieve env setting peers moments key).run getting =
      match (askFirst env setting peers moments key .getOwnProvider
          (getting.node.getProviders key)).run getting with
      | .ok (some value) after => .ok value after
      | .ok none after =>
          (Getting.retrieveFound env setting peers moments key).run after
      | .error fault after => .error fault after := by
  rw [Getting.retrieve, run_get_bind, EStateM.run_bind]
  cases (askFirst env setting peers moments key .getOwnProvider
      (getting.node.getProviders key)).run getting with
  | error fault after => rfl
  | ok value after => cases value <;> rfl

theorem namedProviders_congr {other : LocalNode}
    (h : other.routingTable = node.routingTable) :
    namedProviders setting peers key other =
      namedProviders setting peers key node := by
  rw [namedProviders, namedProviders, LocalNode.findNode, LocalNode.findNode, h]

/-- How the third option ends, behind a second one that finds nothing. -/
theorem retrieves_found_iff {middle : Getting}
    (hmiddle : Asks peers key (.start node) middle (ownRequests key node))
    (hown : ∀ request ∈ ownRequests key node,
      verdict env peers moments key request = .ok none) :
    (∃ value after,
      (Getting.retrieveFound env setting peers moments key).run middle =
          .ok value after ∧
        Retrieved env setting peers moments key node value after) ↔
      Findable node key ∧ PassesFirst env peers moments key
        (foundRequests setting peers key node) := by
  have hfind : middle.node.findNode setting key maxClosestNodes =
      node.findNode setting key maxClosestNodes := by
    rw [LocalNode.findNode, hmiddle.routingTable, Getting.node_start,
      LocalNode.findNode]
  have hproviders : (onNode (sendGetProviders setting peers key)).run middle =
      ended ((node.findNode setting key maxClosestNodes).map fun _ =>
        namedProviders setting peers key node) middle := by
    rw [EStateM.run, onNode, run_sendGetProviders, hfind,
      namedProviders_congr hmiddle.routingTable]
    cases node.findNode setting key maxClosestNodes <;> rfl
  have hreturns : (∃ closest,
      node.findNode setting key maxClosestNodes = .ok closest) ↔
        Findable node key := findNode_returns
  rw [Getting.retrieveFound, EStateM.run_bind, hproviders, ← hreturns,
    passesFirst_iff]
  cases node.findNode setting key maxClosestNodes with
  | error fault =>
      refine iff_of_false ?_ ?_
      · rintro ⟨value, after, hrun, -⟩
        cases hrun
      · rintro ⟨⟨closest, hclosest⟩, -⟩
        cases hclosest
  | ok closest =>
      rw [and_iff_right ⟨closest, rfl⟩]
      obtain ⟨after, front, hrun, hasks, hprefix, hall, hfound⟩ := run_askFirst env
        setting peers moments key .getFoundProvider
        (namedProviders setting peers key node) middle
      change (∃ value after, ((do
        let found ← askFirst env setting peers moments key .getFoundProvider
          (namedProviders setting peers key node)
        return found.getD "") : GetCall String).run middle = _ ∧ _) ↔ _
      rw [EStateM.run_bind, hrun, foundRequests]
      cases hfirst : firstRead (verdict env peers moments key)
          ((namedProviders setting peers key node).map (.getFoundProvider, ·)) with
      | error fault =>
          refine iff_of_false ?_ (not_yields_error fault)
          rintro ⟨value, final, h, -⟩
          cases h
      | ok entry =>
          refine iff_of_true ?_ (yields_ok entry)
          have hboth := hmiddle.trans hasks
          cases entry with
          | some entry =>
              have hsubset : ownRequests key node ++ front ⊆
                  ownRequests key node ++ foundRequests setting peers key node :=
                List.append_subset.mpr ⟨List.subset_append_left _ _,
                  List.subset_append_of_subset_right _ hprefix.subset⟩
              refine ⟨entry.2, after, rfl, hboth.retrieved_some hsubset
                (List.mem_append_right _ (hfound entry hfirst)) ?_⟩
              exact verdict_eq_some_iff.mp (reading_of_firstRead hfirst)
          | none =>
              refine ⟨"", after, rfl, ?_⟩
              rw [hall hfirst] at hboth
              refine hboth.retrieved_none fun request hrequest => ?_
              rcases List.mem_append.mp hrequest with hrequest | hrequest
              · exact hown request hrequest
              · exact firstRead_eq_none_iff.mp hfirst request hrequest

/-- How the second option ends. -/
theorem retrieves_iff_of_not_holds (hholds : ¬ Holds setting key node) :
    Retrieves env setting peers moments key node ↔
      PassesFirst env peers moments key (ownRequests key node) ∧
        ((∃ request ∈ ownRequests key node, ∃ value,
            Offers env peers moments key request value) ∨
          Findable node key ∧
            PassesFirst env peers moments key
              (foundRequests setting peers key node)) := by
  rw [Retrieves, run_sendGet_of_not_holds hholds, passesFirst_iff]
  obtain ⟨middle, front, hrun, hasks, hprefix, hall, hfound⟩ := run_askFirst env
    setting peers moments key .getOwnProvider (node.getProviders key)
    (.start node)
  rw [run_retrieve, Getting.node_start, hrun, ownRequests]
  cases hfirst : firstRead (verdict env peers moments key)
      ((node.getProviders key).map (.getOwnProvider, ·)) with
  | error fault =>
      refine iff_of_false ?_ fun h => not_yields_error fault h.1
      rintro ⟨value, after, h, -⟩
      cases h
  | ok entry =>
      rw [and_iff_right (yields_ok entry)]
      cases entry with
      | some entry =>
          have hoffers := verdict_eq_some_iff.mp (reading_of_firstRead hfirst)
          have hsubset : front ⊆
              ownRequests key node ++ foundRequests setting peers key node :=
            List.subset_append_of_subset_left _ hprefix.subset
          refine iff_of_true ⟨entry.2, middle, rfl,
            hasks.retrieved_some hsubset (hfound entry hfirst) hoffers⟩ (.inl ?_)
          exact ⟨entry.1, mem_of_firstRead hfirst, entry.2, hoffers⟩
      | none =>
          have hown := firstRead_eq_none_iff.mp hfirst
          rw [or_iff_right]
          · refine retrieves_found_iff ?_ hown
            rwa [hall hfirst] at hasks
          · rintro ⟨request, hrequest, value, hoffers⟩
            have hverdict := hown request hrequest
            rw [verdict_eq_some_iff.mpr hoffers] at hverdict
            cases hverdict

end Whole

/-! ## A provider with a malformed user -/

def knownProvider : Provider :=
  ⟨"4faf1b2e0a077e6a9d92fa051f256038", 50881⟩

/-- Everyone replies with the document. -/
def malformedPeers : Peers where
  shuffle nodes := nodes
  answer _ _ := .received (some (.response
    ⟨"1.0", ⟨Finmap.singleton "value" userText, []⟩, "a1b2"⟩))

def knowingNode : LocalNode :=
  { lonelyNode with providers := Finmap.singleton peerKey [knownProvider] }

end Neroshop.Rpc
