import Neroshop.Node.Freshness
import Neroshop.Rpc.Client
import Neroshop.Rpc.Signed

/-!
# The cached copies of the node's own values

A `put` of the node's own client stores the value and then writes the text that
was offered into `hash_table`.  But `store` succeeds also where it keeps a
newer value, and the row is not written with the value in one transaction, so
the table and its copy can part.
-/

namespace Neroshop.Rpc

open Neroshop.Foundation Neroshop.Node

/-- What is in `data` and in `hash_table` is the same in both. -/
def Coherent (tables : Store) : Prop :=
  ∀ key value cached, tables.data.lookup key = some value →
    tables.hashTable.lookup key = some cached → cached = value

section Offers

variable (env : Externals) (moment : Moment) (tables : Store)
  (key value : String)

/-- The offer is accepted and what is stored under its key is more recent. -/
def KeepsNewer : Prop :=
  ∃ current json, tables.data.lookup key = some current ∧ current ≠ value ∧
    validateDocument env key value = .ok (some json) ∧
    expiry moment.clock json = .current ∧
    judgeTexts env value current = .ok .keep

/-- The offer is stored already, or is accepted under a new key or in place. -/
def StoresOffer : Prop :=
  tables.data.lookup key = some value ∨
    ∃ json, validateDocument env key value = .ok (some json) ∧
      expiry moment.clock json = .current ∧
      ∀ current, tables.data.lookup key = some current →
        judgeTexts env value current = .ok .replace

/-- The row that is written, or the one that stays, is the stored value. -/
structure CachesStored : Prop where
  written : moment.executes .upsertHashTable = true →
    ¬ KeepsNewer env moment tables key value
  unwritten : moment.executes .upsertHashTable = false →
    StoresOffer env moment tables key value →
    ∀ cached, tables.hashTable.lookup key = some cached → cached = value

/-- The row that `cache` writes, where its statement is executed. -/
def cacheRow : Store :=
  if moment.executes .upsertHashTable
  then { tables with hashTable := tables.hashTable.insert key value }
  else tables

/-- The tables after `store` and, where that succeeds, `cache`. -/
def putCached : Store :=
  match put env moment tables key value with
  | (.ok true, after) => cacheRow moment after key value
  | (_, after) => after

end Offers

section Tables

variable {env : Externals} {moment : Moment} {tables after : Store}
  {key value : String}

/-- Where the tables change under one key only, that key decides. -/
theorem coherent_iff_at (hcoherent : Coherent tables)
    (hdata : ∀ other, other ≠ key →
      after.data.lookup other = tables.data.lookup other)
    (hhashTable : ∀ other, other ≠ key →
      after.hashTable.lookup other = tables.hashTable.lookup other) :
    Coherent after ↔ ∀ value cached, after.data.lookup key = some value →
      after.hashTable.lookup key = some cached → cached = value := by
  constructor
  · intro h
    exact h key
  · intro h other value cached hvalue hcached
    by_cases hother : other = key
    · subst hother
      exact h value cached hvalue hcached
    · rw [hdata other hother] at hvalue
      rw [hhashTable other hother] at hcached
      exact hcoherent other value cached hvalue hcached

theorem coherent_of_absent (hcoherent : Coherent tables)
    (hdata : after.data = tables.data.erase key)
    (hhashTable : ∀ other, other ≠ key →
      after.hashTable.lookup other = tables.hashTable.lookup other) :
    Coherent after := by
  apply (coherent_iff_at hcoherent ?_ hhashTable).mpr
  · intro value cached hvalue
    simp [hdata] at hvalue
  · intro other hother
    rw [hdata, Finmap.lookup_erase_ne hother]

theorem coherent_discard (hcoherent : Coherent tables) :
    Coherent (tables.discard moment key) := by
  apply coherent_of_absent hcoherent (Store.discard_data ..)
  intro other hother
  simp [Store.lookup_deleteHashTable, hother]

theorem coherent_insertData (hcoherent : Coherent tables) :
    Coherent (tables.insertData key value) ↔
      ∀ cached, tables.hashTable.lookup key = some cached → cached = value := by
  rw [coherent_iff_at hcoherent
    (fun other hother => insertData_lookup_of_ne tables value hother)
    (fun _ _ => rfl)]
  simp only [insertData_lookup, Option.some.injEq]
  constructor
  · intro h cached hcached
    exact h value cached rfl hcached
  · rintro h _ cached rfl hcached
    exact h cached hcached

theorem cacheRow_of_executes (h : moment.executes .upsertHashTable = true) :
    cacheRow moment tables key value =
      { tables with hashTable := tables.hashTable.insert key value } :=
  if_pos h

theorem cacheRow_of_fails (h : moment.executes .upsertHashTable = false) :
    cacheRow moment tables key value = tables :=
  if_neg (by simp [h])

/-- The offered text is the row of the key now. -/
theorem coherent_cacheRow (hcoherent : Coherent tables)
    (hdata : ∀ other, other ≠ key →
      after.data.lookup other = tables.data.lookup other)
    (hhashTable : after.hashTable = tables.hashTable)
    (hupsert : moment.executes .upsertHashTable = true) :
    Coherent (cacheRow moment after key value) ↔
      ∀ stored, after.data.lookup key = some stored → value = stored := by
  have hrow : (cacheRow moment after key value).hashTable =
      tables.hashTable.insert key value := by
    rw [cacheRow_of_executes hupsert, hhashTable]
  have hrows : ∀ other, other ≠ key →
      (cacheRow moment after key value).hashTable.lookup other =
        tables.hashTable.lookup other := by
    intro other hother
    rw [hrow, Finmap.lookup_insert_of_ne _ hother]
  have hkept : (cacheRow moment after key value).data = after.data := by
    rw [cacheRow_of_executes hupsert]
  rw [coherent_iff_at hcoherent (by rwa [hkept]) hrows, hkept, hrow]
  simp only [Finmap.lookup_insert, Option.some.injEq]
  constructor
  · intro h stored hstored
    exact h stored value hstored rfl
  · rintro h stored _ hstored rfl
    exact h stored hstored

theorem not_keepsNewer_of_judge {current : String}
    (hlookup : tables.data.lookup key = some current)
    (hjudge : judgeTexts env value current ≠ .ok .keep) :
    ¬ KeepsNewer env moment tables key value := by
  rintro ⟨stored, json, hstored, -, -, -, hkeep⟩
  rw [hlookup, Option.some.injEq] at hstored
  subst hstored
  exact hjudge hkeep

theorem not_keepsNewer_of_document
    (h : ∀ json, validateDocument env key value = .ok (some json) →
      expiry moment.clock json ≠ .current) :
    ¬ KeepsNewer env moment tables key value := by
  rintro ⟨current, json, -, -, hdocument, hexpiry, -⟩
  exact h json hdocument hexpiry

theorem cachesStored_of_refused (hkeeps : ¬ KeepsNewer env moment tables key value)
    (hstores : ¬ StoresOffer env moment tables key value) :
    CachesStored env moment tables key value :=
  ⟨fun _ => hkeeps, fun _ h => absurd h hstores⟩

theorem not_storesOffer (h : tables.data.lookup key ≠ some value)
    (hdocument : ∀ json, validateDocument env key value = .ok (some json) →
      expiry moment.clock json = .current →
      ∃ current, tables.data.lookup key = some current ∧
        judgeTexts env value current ≠ .ok .replace) :
    ¬ StoresOffer env moment tables key value := by
  rintro (hstored | ⟨json, hjson, hexpiry, hreplaces⟩)
  · exact h hstored
  · obtain ⟨current, hcurrent, hjudge⟩ := hdocument json hjson hexpiry
    exact hjudge (hreplaces current hcurrent)

/-- The value is in `data` now; the row decides. -/
theorem coherent_stored (hcoherent : Coherent tables)
    (hkeeps : ¬ KeepsNewer env moment tables key value)
    (hstores : StoresOffer env moment tables key value) :
    Coherent (cacheRow moment (tables.insertData key value) key value) ↔
      CachesStored env moment tables key value := by
  cases hupsert : moment.executes .upsertHashTable with
  | true =>
      refine iff_of_true ?_ ⟨fun _ => hkeeps, fun h => ?_⟩
      · apply (coherent_cacheRow hcoherent (fun other hother =>
          insertData_lookup_of_ne tables value hother) rfl hupsert).mpr
        intro stored hstored
        simpa using hstored
      · rw [hupsert] at h
        cases h
  | false =>
      rw [cacheRow_of_fails hupsert, coherent_insertData hcoherent]
      constructor
      · intro h
        exact ⟨fun _ => hkeeps, fun _ _ => h⟩
      · intro h
        exact h.unwritten hupsert hstores

theorem insertData_of_stored (h : tables.data.lookup key = some value) :
    tables.insertData key value = tables := by
  have hdata : tables.data.insert key value = tables.data := by
    refine Finmap.ext_lookup fun other => ?_
    by_cases hother : other = key
    · subst hother
      rw [Finmap.lookup_insert, h]
    · rw [Finmap.lookup_insert_of_ne _ hother]
  rw [Store.insertData, hdata]

/-- The value that is kept parts from the row that is written. -/
theorem coherent_kept (hcoherent : Coherent tables)
    (hkeeps : KeepsNewer env moment tables key value) :
    Coherent (cacheRow moment tables key value) ↔
      CachesStored env moment tables key value := by
  obtain ⟨current, json, hlookup, hne, hdocument, hexpiry, hjudge⟩ := hkeeps
  have hstores : ¬ StoresOffer env moment tables key value := by
    apply not_storesOffer
    · rw [hlookup, Ne, Option.some.injEq]
      exact hne
    · intro _ _ _
      exact ⟨current, hlookup, by simp [hjudge]⟩
  cases hupsert : moment.executes .upsertHashTable with
  | true =>
      rw [coherent_cacheRow hcoherent (fun _ _ => rfl) rfl hupsert]
      refine iff_of_false (fun h => hne (h current hlookup).symm) fun h => ?_
      exact h.written hupsert
        ⟨current, json, hlookup, hne, hdocument, hexpiry, hjudge⟩
  | false =>
      rw [cacheRow_of_fails hupsert]
      refine iff_of_true hcoherent ⟨fun h => ?_, fun _ h => absurd h hstores⟩
      rw [hupsert] at h
      cases h

theorem coherent_putCached (hcoherent : Coherent tables) :
    Coherent (putCached env moment tables key value) ↔
      CachesStored env moment tables key value := by
  have houtcome := put_outcome env moment tables key value
  rw [putCached]
  cases hput : put env moment tables key value with
  | mk result after =>
  rw [hput] at houtcome
  dsimp only at houtcome
  cases houtcome with
  | stored h =>
      have hkeeps : ¬ KeepsNewer env moment tables key value := by
        rintro ⟨current, -, hcurrent, hne, -⟩
        rw [h, Option.some.injEq] at hcurrent
        exact hne hcurrent.symm
      have hstored := coherent_stored hcoherent hkeeps (.inl h)
      rwa [insertData_of_stored h] at hstored
  | fault fault h hdocument =>
      refine iff_of_true hcoherent (cachesStored_of_refused ?_ ?_)
      · exact not_keepsNewer_of_document (by simp [hdocument])
      · exact not_storesOffer h (by simp [hdocument])
  | unaccepted h hdocument =>
      refine iff_of_true hcoherent (cachesStored_of_refused ?_ ?_)
      · exact not_keepsNewer_of_document (by simp [hdocument])
      · exact not_storesOffer h (by simp [hdocument])
  | malformedExpiry json h hdocument hexpiry =>
      refine iff_of_true hcoherent (cachesStored_of_refused ?_ ?_)
      · exact not_keepsNewer_of_document (by simp [hdocument, hexpiry])
      · exact not_storesOffer h (by simp [hdocument, hexpiry])
  | expired json h hdocument hexpiry =>
      refine iff_of_true (coherent_discard hcoherent)
        (cachesStored_of_refused ?_ ?_)
      · exact not_keepsNewer_of_document (by simp [hdocument, hexpiry])
      · exact not_storesOffer h (by simp [hdocument, hexpiry])
  | inserted json h hdocument hexpiry =>
      apply coherent_stored hcoherent
      · rintro ⟨current, -, hcurrent, -⟩
        rw [h] at hcurrent
        cases hcurrent
      · exact .inr ⟨json, hdocument, hexpiry, by simp [h]⟩
  | updated json current h hne hdocument hexpiry =>
      have hrefused (hkeep : judgeTexts env value current ≠ .ok .keep)
          (hreplace : judgeTexts env value current ≠ .ok .replace) :
          CachesStored env moment tables key value := by
        apply cachesStored_of_refused (not_keepsNewer_of_judge h hkeep)
        apply not_storesOffer
        · rw [h, Ne, Option.some.injEq]
          exact hne
        · intro _ _ _
          exact ⟨current, h, hreplace⟩
      simp only [Node.set, h, Option.getD_some]
      cases hjudge : judgeTexts env value current with
      | error fault =>
          exact iff_of_true hcoherent (hrefused (by simp [hjudge])
            (by simp [hjudge]))
      | ok update =>
      cases update with
      | reject =>
          exact iff_of_true hcoherent (hrefused (by simp [hjudge])
            (by simp [hjudge]))
      | keep =>
          exact coherent_kept hcoherent
            ⟨current, json, h, hne, hdocument, hexpiry, hjudge⟩
      | replace =>
          apply coherent_stored hcoherent
          · exact not_keepsNewer_of_judge h (by simp [hjudge])
          · refine .inr ⟨json, hdocument, hexpiry, fun stored hstored => ?_⟩
            rw [h, Option.some.injEq] at hstored
            rw [← hstored, hjudge]

theorem coherent_congr (hdata : after.data = tables.data)
    (hhashTable : after.hashTable = tables.hashTable) :
    Coherent after ↔ Coherent tables := by
  simp only [Coherent, hdata, hhashTable]

end Tables

section Calls

variable {env : Externals} {setting : Setting} {node : LocalNode}
  {key value : String}

theorem run_store (env : Externals) (setting : Setting) (node : LocalNode)
    (key value : String) :
    (LocalNode.store env setting key value).run node =
      match put env setting.moment node.tables key value with
      | (.ok stored, after) => .ok stored { node with tables := after }
      | (.error fault, after) => .error fault { node with tables := after } := by
  simp only [LocalNode.store, LocalNode.onTables, EStateM.run]
  cases put env setting.moment node.tables key value with
  | mk result after => cases result <;> rfl

theorem run_cache (setting : Setting) (node : LocalNode) (key value : String) :
    (LocalNode.cache setting key value).run node =
      .ok (setting.moment.executes .upsertHashTable)
        { node with
          tables := cacheRow setting.moment node.tables key value } := by
  simp only [LocalNode.cache, LocalNode.onTables, EStateM.run, cacheRow]
  cases setting.moment.executes .upsertHashTable <;> rfl

theorem stateAfter_map (env : Externals) (setting : Setting) (node : LocalNode)
    (key value : String) :
    (stateAfter (LocalNode.map env setting key value) node).tables.data =
        node.tables.data ∧
      (stateAfter (LocalNode.map env setting key value) node).tables.hashTable =
        node.tables.hashTable := by
  simp only [stateAfter, LocalNode.map, EStateM.run]
  cases node.keyMapper.add env setting.moment node.tables.mappings key value
    with
  | error fault => exact ⟨rfl, rfl⟩
  | ok mapped => exact ⟨rfl, rfl⟩

theorem storeAndCache_copies (env : Externals) (setting : Setting)
    (node : LocalNode) (key value : String) :
    (stateAfter (storeAndCache env setting key value) node).tables.data =
        (putCached env setting.moment node.tables key value).data ∧
      (stateAfter (storeAndCache env setting key value) node).tables.hashTable =
        (putCached env setting.moment node.tables key value).hashTable := by
  have hstore := run_store env setting node key value
  unfold storeAndCache putCached
  cases hput : put env setting.moment node.tables key value with
  | mk result after =>
  rw [hput] at hstore
  cases result with
  | error fault =>
      rw [stateAfter_bind, hstore]
      exact ⟨rfl, rfl⟩
  | ok stored =>
      rw [stateAfter_bind_of_ok hstore]
      cases stored with
      | false => exact ⟨rfl, rfl⟩
      | true =>
          rw [if_pos rfl, stateAfter_bind_of_ok (run_cache ..)]
          cases setting.moment.executes .upsertHashTable with
          | false => exact ⟨rfl, rfl⟩
          | true =>
              rw [if_pos rfl]
              cases isValuePublishable env value with
              | error fault => exact ⟨rfl, rfl⟩
              | ok publishable =>
                  rw [stateAfter_bind_of_ok (run_ofExcept_eq_ok.mpr ⟨rfl, rfl⟩),
                    stateAfter_bind_of_forall fun _ _ => rfl]
                  exact stateAfter_map ..

theorem coherent_storeAndCache (hcoherent : Coherent node.tables) :
    Coherent (stateAfter (storeAndCache env setting key value) node).tables ↔
      CachesStored env setting.moment node.tables key value := by
  obtain ⟨hdata, hhashTable⟩ := storeAndCache_copies env setting node key value
  rw [coherent_congr hdata hhashTable, coherent_putCached hcoherent]

end Calls

/-! ## Requests of the node's own client -/

section Requests

variable {env : Externals} {setting : Setting} {peers : Peers}
  {node : LocalNode} {args : StringMap} {message : DhtMessage}
  {key value : String}

/-- An offer that is not sent for a fault is not stored either. -/
theorem coherent_handlePut (hkey : args.lookup "key" = some key)
    (hvalue : args.lookup "value" = some value)
    (hcoherent : Coherent node.tables) :
    Coherent (stateAfter (handlePut env (peers.connect env setting) args message
        true) node).tables ↔
      (Returns (LocalNode.sendPut env (peers.connect env setting) key value)
        node → CachesStored env setting.moment node.tables key value) := by
  have hpublish : SameTables node (stateAfter
      (LocalNode.sendPut env (peers.connect env setting) key value) node) :=
    publish_tables key value node
  simp only [handlePut, hkey, hvalue, Bool.not_true, Bool.false_eq_true,
    if_false]
  by_cases hsent : Returns
      (LocalNode.sendPut env (peers.connect env setting) key value) node
  · obtain ⟨sent, middle, hrun⟩ := hsent
    have htables : middle.tables = node.tables := by
      rwa [stateAfter, hrun] at hpublish
    have hcode : ∀ cached last, stateAfter (do
        let code := putCode sent cached
        return if code = .storePartial then (code, message)
          else failWith code message : NodeCall Outcome) last = last := by
      intro cached last
      dsimp only
      split <;> rfl
    rw [stateAfter_bind_of_ok hrun, stateAfter_bind_of_forall hcode,
      coherent_storeAndCache (by rwa [htables]), htables]
    exact ⟨fun h _ => h, fun h => h ⟨sent, middle, hrun⟩⟩
  · rw [stateAfter_bind_of_not_returns hsent, hpublish]
    exact iff_of_true hcoherent fun h => absurd h hsent

/-- With or without its arguments. -/
theorem coherent_handlePut_iff (hcoherent : Coherent node.tables) :
    Coherent (stateAfter (handlePut env (peers.connect env setting) args message
        true) node).tables ↔
      ∀ key value, args.lookup "key" = some key →
        args.lookup "value" = some value →
        Returns (LocalNode.sendPut env (peers.connect env setting) key value)
          node → CachesStored env setting.moment node.tables key value := by
  cases hkey : args.lookup "key" with
  | none =>
      rw [stateAfter_handlePut_of_missing (.inl hkey)]
      exact iff_of_true hcoherent (by simp)
  | some key =>
  cases hvalue : args.lookup "value" with
  | none =>
      rw [stateAfter_handlePut_of_missing (.inr hvalue)]
      exact iff_of_true hcoherent (by simp)
  | some value =>
      rw [coherent_handlePut hkey hvalue hcoherent]
      constructor
      · rintro h _ _ ⟨⟩ ⟨⟩
        exact h
      · intro h
        exact h key value rfl rfl

theorem coherent_handleRemove (hcoherent : Coherent node.tables) :
    Coherent (stateAfter (handleRemove setting args message) node).tables := by
  cases hkey : args.lookup "key" with
  | none =>
      rw [handleRemove, hkey]
      exact hcoherent
  | some key =>
      rw [stateAfter, run_handleRemove hkey]
      apply coherent_of_absent hcoherent rfl
      intro other hother
      change ((node.tables.remove key).deleteHashTable _ key).hashTable.lookup
        other = _
      rw [Store.lookup_deleteHashTable, if_neg fun h => hother h.1]
      rfl

end Requests

section Runs

variable {env : Externals} {parseFromArray : List UInt8 → Option DhtMessage}
  {node final : LocalNode} {arrivals : List Arrival}

/-- A `put` or `remove` of the node's own client, and no other request. -/
def writeStep (env : Externals)
    (parseFromArray : List UInt8 → Option DhtMessage) (node : LocalNode)
    (arrival : Arrival) : Option LocalNode :=
  match parseFromArray arrival.request with
  | some (.query query) =>
      if arrival.ipcMode ∧ (query.query = "put" ∨ query.query = "remove")
      then answerStep env parseFromArray node arrival else none
  | _ => none

/-- A `put` that comes to be stored caches what is stored then. -/
def WriteCaches (env : Externals)
    (parseFromArray : List UInt8 → Option DhtMessage) (node : LocalNode)
    (arrival : Arrival) : Prop :=
  ∀ query key value,
    parseFromArray arrival.request = some (.query query) →
    query.version = dhtVersion → query.query = "put" →
    query.args.lookup "key" = some key →
    query.args.lookup "value" = some value →
    Returns (LocalNode.sendPut env (arrival.peers.connect env arrival.setting)
      key value) node →
    CachesStored env arrival.setting.moment node.tables key value

/-- A coherent state stays so in a step, exactly on the condition. -/
theorem coherent_step {arrival : Arrival} {after : LocalNode}
    (hcoherent : Coherent node.tables)
    (hstep : writeStep env parseFromArray node arrival = some after) :
    Coherent after.tables ↔ WriteCaches env parseFromArray node arrival := by
  obtain ⟨setting, peers, request, ipcMode⟩ := arrival
  unfold writeStep at hstep
  split at hstep
  swap
  · cases hstep
  next query hparse =>
  dsimp only at hparse hstep
  split at hstep
  swap
  · cases hstep
  next hwrite =>
  obtain ⟨hipc, hmethod⟩ := hwrite
  cases hipc
  rw [answerStep, Option.some.injEq] at hstep
  subst hstep
  have hsame : ∀ other, parseFromArray request = some (.query other) →
      other = query := by
    intro other hother
    rw [hparse, Option.some.injEq, DhtMessage.query.injEq] at hother
    exact hother.symm
  by_cases hversion : query.version = dhtVersion
  swap
  · have hearly : protobufProcess env (peers.connect env setting) parseFromArray
        request true = pure (earlyReply "Version mismatch") := by
      simp [protobufProcess, hparse, hversion]
    rw [hearly]
    refine iff_of_true hcoherent fun other key value hother hother' => ?_
    exact absurd (hsame other hother ▸ hother') hversion
  rw [stateAfter_query hparse hversion]
  rcases hmethod with hput | hremove
  · rw [handleMethod_of_put hput, coherent_handlePut_iff hcoherent]
    constructor
    · intro h other key value hother _ _
      cases hsame other hother
      exact h key value
    · intro h key value
      exact h query key value hparse hversion hput
  · have hdispatch : handleMethod env (peers.connect env setting) true query
        (startResponse query node) = handleRemove (peers.connect env setting)
          query.args (startResponse query node) := by
      simp [handleMethod, hremove]
    rw [hdispatch]
    refine iff_of_true (coherent_handleRemove hcoherent) ?_
    intro other key value hother _ hput
    cases hsame other hother
    exact absurd (hremove.symm.trans hput) (by decide)

/--
In every run of puts and removals of the node's own client, a value and its
copy agree, as long as every put that comes to be stored caches what is stored
then.
-/
theorem copies_coherent (hstart : Coherent node.tables)
    (hmeets : AllMeet (writeStep env parseFromArray)
      (WriteCaches env parseFromArray) node arrivals)
    (hrun : runFrom (writeStep env parseFromArray) node arrivals =
      some final) : Coherent final.tables := by
  have hpreserved : ∀ before arrival after, Coherent before.tables →
      WriteCaches env parseFromArray before arrival →
      writeStep env parseFromArray before arrival = some after →
        Coherent after.tables := by
    intro before arrival after hbefore hcaches hstep
    exact (coherent_step hbefore hstep).mpr hcaches
  have hfinal := runFrom_invariant (fun node => Coherent node.tables)
    hpreserved hmeets hrun hstart
  exact hfinal

end Runs

/-! ## An older version of a rating -/

def copiedNode (text : String) : LocalNode :=
  { lonelyNode with
    tables := cacheRow peerMoment (Store.empty.insertData ratingKey text)
      ratingKey text }

def versionQuery (text : String) : WireQuery :=
  (ClientCall.put ratingKey text).sent

def versionArrival (text : String) : Arrival :=
  ⟨lonelySetting, silentPeers, (versionQuery text).bytes, true⟩

def versionPut (text : String) (node : LocalNode) : LocalNode :=
  stateAfter (protobufProcess updatedExternals
    (silentPeers.connect updatedExternals lonelySetting)
    (WireQuery.parser [versionQuery text]) (versionQuery text).bytes true) node

theorem coherent_copiedNode (text : String) :
    Coherent (copiedNode text).tables := by
  have hempty : Coherent Store.empty := by
    intro key value cached hvalue
    simp [Store.empty] at hvalue
  apply (coherent_cacheRow hempty (fun other hother =>
    insertData_lookup_of_ne _ text hother) rfl rfl).mpr
  intro stored hstored
  simpa using hstored

theorem run_versionPut (text : String) (node : LocalNode) :
    runFrom (writeStep updatedExternals (WireQuery.parser [versionQuery text]))
      node [versionArrival text] = some (versionPut text node) := by
  have hparse := WireQuery.parser_bytes_head (versionQuery text) []
  rw [runFrom_cons, writeStep, versionArrival]
  simp only [hparse]
  rfl

/-- The later version stays in `data` and the older one is its copy. -/
theorem older_cached :
    Coherent (copiedNode laterUpdatedText).tables ∧
      runFrom (writeStep updatedExternals
          (WireQuery.parser [versionQuery updatedText]))
        (copiedNode laterUpdatedText) [versionArrival updatedText] =
          some (versionPut updatedText (copiedNode laterUpdatedText)) ∧
      ¬ Coherent (versionPut updatedText
        (copiedNode laterUpdatedText)).tables := by
  refine ⟨coherent_copiedNode _, run_versionPut _ _, fun hcoherent => ?_⟩
  have hstored : (versionPut updatedText
      (copiedNode laterUpdatedText)).tables.data.lookup ratingKey =
        some laterUpdatedText := by
    decide +kernel
  have hcached : (versionPut updatedText
      (copiedNode laterUpdatedText)).tables.hashTable.lookup ratingKey =
        some updatedText := by
    decide +kernel
  have hsame := hcoherent ratingKey _ _ hstored hcached
  exact absurd hsame (by decide)

theorem copies_coherent_later :
    Coherent (versionPut laterUpdatedText (copiedNode updatedText)).tables := by
  refine copies_coherent (coherent_copiedNode updatedText) ?_
    (run_versionPut laterUpdatedText _)
  refine ⟨?_, fun _ _ => trivial⟩
  intro query key value hparse _ _ hkey hvalue _
  rw [versionArrival, WireQuery.parser_bytes_head, Option.some.injEq,
    DhtMessage.query.injEq] at hparse
  subst hparse
  have hlookup : (copiedNode updatedText).tables.data.lookup ratingKey =
      some updatedText := by
    decide +kernel
  have hjudge : judgeTexts updatedExternals laterUpdatedText updatedText =
      .ok .replace := by
    decide +kernel
  have hkeyed : key = ratingKey := by
    rw [← Option.some.injEq, ← hkey]
    decide
  have hvalued : value = laterUpdatedText := by
    rw [← Option.some.injEq, ← hvalue]
    decide +kernel
  subst hkeyed hvalued
  refine ⟨fun _ => ?_, fun h => absurd h (by decide)⟩
  exact not_keepsNewer_of_judge hlookup (by simp [hjudge])

end Neroshop.Rpc
