import Neroshop.Rpc.Process

/-!
# What the methods make of a query

A query is served when its method is there, has its arguments and succeeds.
Each method judges that by its result code, and a put of the node itself has a
code of its own for a value that too few nodes have acknowledged.
-/

namespace Neroshop.Rpc

open Neroshop.Foundation Neroshop.Node

section Operations

variable (env : Externals) (setting : Setting) (node : LocalNode)
  (ipcMode : Bool)

/-- The last removal that `remove` makes for a key is executed. -/
def RemovesLast (key : String) : Prop :=
  if node.tables.findsMappings setting.moment key then
    setting.moment.executes .deleteMappings = true
  else if node.tables.findsHashTable setting.moment key then
    setting.moment.executes .deleteHashTable = true
  else True

/-- The operation of a query is there, has its arguments, and succeeds. -/
inductive Served (query : Query) : Prop
  | ping (h : query.query = "ping")
  | findNode (h : query.query = "find_node") (target : String)
      (htarget : query.args.lookup "target" = some target)
  | getProviders (h : query.query = "get_providers") (key : String)
      (hkey : query.args.lookup "key" = some key)
  | getHeld (h : query.query = "get") (hipc : ipcMode = false) (key : String)
      (hkey : query.args.lookup "key" = some key)
      (hvalue : heldValue setting node key ≠ "")
  | getStatus (h : query.query = "get") (hipc : ipcMode = true)
      (hkey : query.args.lookup "key" = some "status")
  | getSent (h : query.query = "get") (hipc : ipcMode = true) (key : String)
      (hkey : query.args.lookup "key" = some key) (hne : key ≠ "status")
      (value : String) (after : LocalNode)
      (hsent : (LocalNode.sendGet setting key).run node = .ok value after)
      (hvalue : value ≠ "")
  | put (h : query.query = "put") (hipc : ipcMode = false)
      (key value : String) (hkey : query.args.lookup "key" = some key)
      (hvalue : query.args.lookup "value" = some value) (after : LocalNode)
      (hstore : (LocalNode.store env setting key value).run node =
        .ok true after)
  | putSent (h : query.query = "put") (hipc : ipcMode = true)
      (key value : String) (hkey : query.args.lookup "key" = some key)
      (hvalue : query.args.lookup "value" = some value) (sent : Nat)
      (after : LocalNode)
      (hsent : (LocalNode.sendPut env setting key value).run node =
        .ok sent after)
      (hfactor : replicationFactor ≤ sent)
  | putUnpublished (h : query.query = "put") (hipc : ipcMode = true)
      (key value : String) (hkey : query.args.lookup "key" = some key)
      (hvalue : query.args.lookup "value" = some value)
      (hpublish : isValuePublishable env value = .ok false)
      (after : LocalNode)
      (hcached : (storeAndCache env setting key value).run node =
        .ok (some false) after)
  | map (h : query.query = "map") (key value : String)
      (hkey : query.args.lookup "key" = some key)
      (hvalue : query.args.lookup "value" = some value)
  | remove (h : query.query = "remove") (hipc : ipcMode = true)
      (key : String) (hkey : query.args.lookup "key" = some key)
      (hremoves : RemovesLast setting node key)
  | clear (h : query.query = "clear") (hipc : ipcMode = true)

def PartlyStored (query : Query) : Prop :=
  query.query = "put" ∧ ipcMode = true ∧ ∃ key value sent after,
    query.args.lookup "key" = some key ∧
    query.args.lookup "value" = some value ∧
    (LocalNode.sendPut env setting key value).run node = .ok sent after ∧
    0 < sent ∧ sent < replicationFactor

/-- What a method's outcome says of the operation. -/
structure Judges (served partlyStored : Prop) (message : DhtMessage)
    (outcome : Outcome) : Prop where
  success : outcome.1 = .success ↔ served
  storePartial : outcome.1 = .storePartial ↔ partlyStored
  response : outcome.1 = .success → outcome.2.hasResponse = true
  tid : outcome.1 = .success → outcome.2.tid = message.tid

end Operations

section Outcomes

variable {message : DhtMessage} {served partlyStored : Prop}

theorem Judges.of_success {reply : DhtMessage} (hserved : served)
    (hpartly : ¬ partlyStored) (hreply : reply.hasResponse = true)
    (htid : reply.tid = message.tid) :
    Judges served partlyStored message (.success, reply) :=
  ⟨iff_of_true rfl hserved, iff_of_false (by simp) hpartly, fun _ => hreply,
    fun _ => htid⟩

theorem Judges.of_failure {reply : DhtMessage} {code : DhtResultCode}
    (hcode : code ≠ .success) (hpart : code ≠ .storePartial)
    (hserved : ¬ served) (hpartly : ¬ partlyStored) :
    Judges served partlyStored message (code, reply) :=
  ⟨iff_of_false hcode hserved, iff_of_false hpart hpartly,
    fun h => absurd h hcode, fun h => absurd h hcode⟩

end Outcomes

/-! ## The methods -/

section Methods

variable {env : Externals} {setting : Setting} {node after : LocalNode}
  {ipcMode : Bool} {query : Query} {message : DhtMessage} {outcome : Outcome}

theorem not_partlyStored (h : query.query ≠ "put") :
    ¬ PartlyStored env setting node ipcMode query :=
  fun hpartly => h hpartly.1

/-- A method that is not there, or lacks an argument, fails by its code. -/
theorem judges_parseError {reply : DhtMessage} (hput : query.query ≠ "put")
    (hserved : ¬ Served env setting node ipcMode query)
    (hrun : (pure (.parseError, reply) : NodeCall Outcome).run node =
      .ok outcome after) :
    Judges (Served env setting node ipcMode query)
      (PartlyStored env setting node ipcMode query) message outcome := by
  obtain ⟨rfl, -⟩ := run_pure_eq_ok.mp hrun
  exact .of_failure (by simp) (by simp) hserved (not_partlyStored hput)

theorem handleFindNode_judges (h : query.query = "find_node")
    (hmessage : message.hasResponse = true)
    (hrun : (handleFindNode setting query.args message).run node =
      .ok outcome after) :
    Judges (Served env setting node ipcMode query)
      (PartlyStored env setting node ipcMode query) message outcome := by
  unfold handleFindNode at hrun
  cases htarget : query.args.lookup "target" with
  | none =>
      simp only [htarget] at hrun
      refine judges_parseError (by simp [h]) (fun hserved => ?_) hrun
      cases hserved <;> simp_all
  | some target =>
      simp only [htarget, run_get_bind, run_bind_eq_ok, run_ofExcept_eq_ok,
        run_pure_eq_ok] at hrun
      obtain ⟨nodes, middle, -, rfl, -⟩ := hrun
      exact .of_success (.findNode h target htarget)
        (not_partlyStored (by simp [h])) (by simp)
        (message.tid_onResponse _ (fun _ => rfl) hmessage)

theorem handleGetProviders_judges (h : query.query = "get_providers")
    (hmessage : message.hasResponse = true)
    (hrun : (handleGetProviders setting query.args message).run node =
      .ok outcome after) :
    Judges (Served env setting node ipcMode query)
      (PartlyStored env setting node ipcMode query) message outcome := by
  unfold handleGetProviders at hrun
  cases hkey : query.args.lookup "key" with
  | none =>
      simp only [hkey] at hrun
      refine judges_parseError (by simp [h]) (fun hserved => ?_) hrun
      cases hserved <;> simp_all
  | some key =>
      simp only [hkey, run_get_bind, run_pure_eq_ok] at hrun
      obtain ⟨rfl, -⟩ := hrun
      exact .of_success (.getProviders h key hkey)
        (not_partlyStored (by simp [h])) (by simp)
        (message.tid_onResponse _ (fun _ => rfl) hmessage)

theorem tid_foldl_addData (entries : List (String × String))
    (response : Response) :
    (entries.foldl (fun response (name, value) => response.addData name value)
      response).tid = response.tid := by
  induction entries generalizing response with
  | nil => rfl
  | cons entry entries ih => exact ih (response.addData entry.1 entry.2)

theorem handleStatus_returns (hmessage : message.hasResponse = true)
    (hrun : (handleStatus setting message).run node = .ok outcome after) :
    outcome.1 = .success ∧ outcome.2.hasResponse = true ∧
      outcome.2.tid = message.tid := by
  simp only [handleStatus, run_get_bind, run_bind_eq_ok, run_ofExcept_eq_ok,
    run_pure_eq_ok] at hrun
  obtain ⟨infos, middle, -, rfl, -⟩ := hrun
  generalize statusData setting node = entries
  exact ⟨rfl, by simp, message.tid_onResponse _
    (fun response => tid_foldl_addData entries response) hmessage⟩

theorem replyValue_judges {value : String} {failed : DhtMessage}
    {served partlyStored : Prop} (hserved : value ≠ "" ↔ served)
    (hpartly : ¬ partlyStored) (hmessage : message.hasResponse = true) :
    Judges served partlyStored message (replyValue message value failed) := by
  unfold replyValue
  split
  · next hempty =>
      exact .of_failure (by simp) (by simp)
        (fun h => hserved.mpr h hempty) hpartly
  · next hvalue =>
      exact .of_success (hserved.mp hvalue) hpartly (by simp)
        (message.tid_onResponse _ (fun _ => rfl) hmessage)

theorem handleGet_judges (h : query.query = "get")
    (hmessage : message.hasResponse = true)
    (hrun : (handleGet setting query.args message ipcMode).run node =
      .ok outcome after) :
    Judges (Served env setting node ipcMode query)
      (PartlyStored env setting node ipcMode query) message outcome := by
  unfold handleGet at hrun
  cases hkey : query.args.lookup "key" with
  | none =>
      simp only [hkey] at hrun
      refine judges_parseError (by simp [h]) (fun hserved => ?_) hrun
      cases hserved <;> simp_all
  | some key =>
  cases hipc : ipcMode with
  | false =>
      simp only [hkey, hipc, Bool.not_false, if_true, run_get_bind,
        run_pure_eq_ok] at hrun
      obtain ⟨rfl, -⟩ := hrun
      refine replyValue_judges ?_ (not_partlyStored (by simp [h])) hmessage
      refine ⟨fun hvalue => .getHeld h rfl key hkey hvalue, fun hserved => ?_⟩
      cases hserved <;> simp_all
  | true =>
  simp only [hkey, hipc, Bool.not_true, Bool.false_eq_true, if_false] at hrun
  by_cases hstatus : key = "status"
  · subst hstatus
    rw [if_pos rfl] at hrun
    obtain ⟨hcode, hresponse, htid⟩ := handleStatus_returns hmessage hrun
    obtain ⟨code, reply⟩ := outcome
    dsimp only at hcode
    subst hcode
    exact .of_success (.getStatus h rfl hkey) (not_partlyStored (by simp [h]))
      hresponse htid
  · rw [if_neg hstatus, run_bind_eq_ok] at hrun
    obtain ⟨value, middle, hsent, hrun⟩ := hrun
    rw [run_pure_eq_ok] at hrun
    obtain ⟨rfl, -⟩ := hrun
    refine replyValue_judges ?_ (not_partlyStored (by simp [h])) hmessage
    refine ⟨fun hvalue => .getSent h rfl key hkey hstatus value middle hsent
      hvalue, fun hserved => ?_⟩
    cases hserved <;> simp_all

theorem failWith_eq (code : DhtResultCode) :
    (failWith code message).1 = code := by
  unfold failWith
  split <;> rfl

theorem failWith_of_success {code : DhtResultCode} (h : code = .success) :
    (failWith code message).2 = message := by
  rw [failWith, if_pos h]

theorem failWith_judges {served partlyStored : Prop} {code : DhtResultCode}
    (hserved : code = .success ↔ served)
    (hpartly : code = .storePartial ↔ partlyStored)
    (hmessage : message.hasResponse = true) :
    Judges served partlyStored message (failWith code message) := by
  constructor
  · rw [failWith_eq, hserved]
  · rw [failWith_eq, hpartly]
  · rw [failWith_eq]
    intro h
    rw [failWith_of_success h, hmessage]
  · rw [failWith_eq]
    intro h
    rw [failWith_of_success h]

theorem sendPut_unpublished {key value : String} {sent : Nat}
    (hpublish : isValuePublishable env value = .ok false)
    (hsent : (LocalNode.sendPut env setting key value).run node =
      .ok sent after) :
    sent = 0 ∧ after = node := by
  rw [LocalNode.sendPut, run_ofExcept_bind hpublish,
    if_neg Bool.false_ne_true, run_pure_eq_ok] at hsent
  exact ⟨hsent.1.symm, hsent.2.symm⟩

theorem publishable_of_cached {key value : String} {publishable : Bool}
    (hcached : (storeAndCache env setting key value).run node =
      .ok (some publishable) after) :
    isValuePublishable env value = .ok publishable := by
  rw [storeAndCache, run_bind_eq_ok] at hcached
  obtain ⟨stored, first, -, hcached⟩ := hcached
  cases stored with
  | false => cases (run_pure_eq_ok.mp hcached).1
  | true =>
      rw [if_pos rfl, run_bind_eq_ok] at hcached
      obtain ⟨written, second, -, hcached⟩ := hcached
      cases written with
      | false => cases (run_pure_eq_ok.mp hcached).1
      | true =>
          simp only [if_true, run_bind_eq_ok, run_ofExcept_eq_ok,
            run_pure_eq_ok, Option.some.injEq] at hcached
          obtain ⟨found, -, ⟨hfound, -⟩, -, -, -, rfl, -⟩ := hcached
          exact hfound

theorem sentCode_eq_success {sent : Nat} :
    sentCode sent = .success ↔ replicationFactor ≤ sent := by
  unfold sentCode replicationFactor
  split
  · simp
    omega
  · split <;> simp <;> omega

theorem sentCode_eq_storePartial {sent : Nat} :
    sentCode sent = .storePartial ↔ 0 < sent ∧ sent < replicationFactor := by
  unfold sentCode
  split
  · next h => simp [h]
  · next h => split <;> simp <;> omega

theorem putCode_eq_success {sent : Nat} {cached : Option Bool}
    (hpublish : cached = some false → sent = 0) :
    putCode sent cached = .success ↔
      replicationFactor ≤ sent ∨ cached = some false := by
  cases cached with
  | none => simp [putCode, sentCode_eq_success]
  | some publishable =>
  cases publishable with
  | false => simp [putCode, cachedCode]
  | true =>
      by_cases hsent : sent = 0
      · simp [putCode, cachedCode, hsent, replicationFactor]
      · simp [putCode, cachedCode, hsent, sentCode_eq_success]

theorem putCode_eq_storePartial {sent : Nat} {cached : Option Bool}
    (hpublish : cached = some false → sent = 0) :
    putCode sent cached = .storePartial ↔
      0 < sent ∧ sent < replicationFactor := by
  cases cached with
  | none => simp [putCode, sentCode_eq_storePartial]
  | some publishable =>
  cases publishable with
  | false => simp [putCode, cachedCode, hpublish]
  | true =>
      by_cases hsent : sent = 0
      · simp [putCode, cachedCode, hsent]
      · simp [putCode, cachedCode, hsent, sentCode_eq_storePartial]

theorem handlePut_judges (h : query.query = "put")
    (hmessage : message.hasResponse = true)
    (hrun : (handlePut env setting query.args message ipcMode).run node =
      .ok outcome after) :
    Judges (Served env setting node ipcMode query)
      (PartlyStored env setting node ipcMode query) message outcome := by
  unfold handlePut at hrun
  split at hrun
  swap
  · next harguments =>
      rw [run_pure_eq_ok] at hrun
      obtain ⟨rfl, -⟩ := hrun
      refine .of_failure (by simp) (by simp) (fun hserved => ?_) ?_
      · cases hserved <;> simp_all
      · rintro ⟨-, -, key, value, sent, middle, hkey, hvalue, -⟩
        exact harguments key value hkey hvalue
  next key value hkey hvalue =>
  cases hipc : ipcMode with
  | false =>
      simp only [hipc, Bool.not_false, if_true, run_bind_eq_ok,
        run_pure_eq_ok] at hrun
      obtain ⟨success, middle, hstore, rfl, -⟩ := hrun
      refine failWith_judges ?_ ?_ hmessage
      · cases success with
        | false =>
            refine iff_of_false (by simp) fun hserved => ?_
            cases hserved <;> simp_all
        | true => exact iff_of_true rfl (.put h rfl key value hkey hvalue _ hstore)
      · refine iff_of_false (by cases success <;> simp) ?_
        rintro ⟨-, hmode, -⟩
        cases hmode
  | true =>
  simp only [hipc, Bool.not_true, Bool.false_eq_true, if_false,
    run_bind_eq_ok, run_pure_eq_ok] at hrun
  obtain ⟨sent, middle, hsent, cached, last, hcached, rfl, -⟩ := hrun
  have hunpublished : cached = some false →
      isValuePublishable env value = .ok false := by
    rintro rfl
    exact publishable_of_cached hcached
  have hnone : cached = some false → sent = 0 := fun hcached =>
    (sendPut_unpublished (hunpublished hcached) hsent).1
  have hserved : putCode sent cached = .success ↔
      Served env setting node true query := by
    rw [putCode_eq_success hnone]
    constructor
    · rintro (hfactor | rfl)
      · exact .putSent h rfl key value hkey hvalue sent middle hsent hfactor
      · have hpublish := hunpublished rfl
        obtain ⟨-, rfl⟩ := sendPut_unpublished hpublish hsent
        exact .putUnpublished h rfl key value hkey hvalue hpublish last hcached
    · intro hserved
      cases hserved with
      | putSent _ _ key' value' hkey' hvalue' sent' middle' hsent' hfactor =>
          simp_all
      | putUnpublished _ _ key' value' hkey' hvalue' hpublish last' hcached' =>
          obtain ⟨-, rfl⟩ := sendPut_unpublished (by simp_all) hsent
          simp_all
      | _ => simp_all
  have hpartly : putCode sent cached = .storePartial ↔
      PartlyStored env setting node true query := by
    rw [putCode_eq_storePartial hnone]
    constructor
    · rintro ⟨hpositive, hfactor⟩
      exact ⟨h, rfl, key, value, sent, middle, hkey, hvalue, hsent, hpositive,
        hfactor⟩
    · rintro ⟨-, -, key', value', sent', middle', hkey', hvalue', hsent',
        hpositive, hfactor⟩
      simp_all
  split
  · next hcode =>
      refine ⟨?_, ?_, ?_, ?_⟩ <;> dsimp only
      · exact hserved
      · exact hpartly
      · exact fun _ => hmessage
      · exact fun _ => rfl
  · exact failWith_judges hserved hpartly hmessage

theorem handleMap_judges (h : query.query = "map")
    (hmessage : message.hasResponse = true)
    (hrun : (handleMap env setting query.args message).run node =
      .ok outcome after) :
    Judges (Served env setting node ipcMode query)
      (PartlyStored env setting node ipcMode query) message outcome := by
  unfold handleMap at hrun
  split at hrun
  · next key value hkey hvalue =>
      rw [run_bind_eq_ok] at hrun
      obtain ⟨valid, middle, -, hrun⟩ := hrun
      have houtcome : outcome = (.success, message) := by
        cases valid with
        | false => exact (run_pure_eq_ok.mp hrun).1.symm
        | true =>
            simp only [if_true, run_bind_eq_ok, run_pure_eq_ok] at hrun
            obtain ⟨-, last, -, rfl, -⟩ := hrun
            rfl
      subst houtcome
      exact .of_success (.map h key value hkey hvalue)
        (not_partlyStored (by simp [h])) hmessage rfl
  · next harguments =>
      refine judges_parseError (by simp [h]) (fun hserved => ?_) hrun
      cases hserved <;> simp_all

theorem run_remove (key : String) :
    (LocalNode.remove key).run node =
      .ok true { node with tables := node.tables.remove key } := by
  simp [LocalNode.remove, LocalNode.onTables, EStateM.run, Store.remove,
    Store.eraseData]

theorem run_deleteRow (statement : SqlStatement) (delete : Store → Store) :
    (LocalNode.deleteRow setting statement delete).run node =
      .ok (setting.moment.executes statement)
        { node with tables := delete node.tables } := (rfl)

/-- The code of the last removal that is made for a key. -/
def removeCode (setting : Setting) (node : LocalNode) (key : String) :
    DhtResultCode :=
  if node.tables.findsMappings setting.moment key then
    if setting.moment.executes .deleteMappings then .success else .removeFailed
  else if node.tables.findsHashTable setting.moment key then
    if setting.moment.executes .deleteHashTable then .success
    else .removeFailed
  else .success

theorem removeCode_eq_success {key : String} :
    removeCode setting node key = .success ↔ RemovesLast setting node key := by
  unfold removeCode RemovesLast
  split_ifs <;> simp_all

theorem removeCode_cases (setting : Setting) (node : LocalNode) (key : String) :
    removeCode setting node key = .success ∨
      removeCode setting node key = .removeFailed := by
  unfold removeCode
  split_ifs <;> simp

theorem remove_of_absent {store : Store} {key : String}
    (h : store.data.lookup key = none) : store.remove key = store := by
  have hdata : store.data.erase key = store.data := by
    refine Finmap.ext_lookup fun other => ?_
    by_cases hother : other = key
    · subst hother
      rw [Finmap.lookup_erase, h]
    · rw [Finmap.lookup_erase_ne hother]
  rw [Store.remove, Store.eraseData, hdata]

theorem deleteHashTable_of_not_found {moment : Moment} {store : Store}
    {key : String} (h : store.findsHashTable moment key = false) :
    store.deleteHashTable moment key = store := by
  unfold Store.findsHashTable at h
  unfold Store.deleteHashTable
  rw [if_neg]
  rintro ⟨hselects, hfound, -⟩
  simp [hselects, hfound] at h

theorem deleteMappings_of_not_found {moment : Moment} {store : Store}
    {key : String} (h : store.findsMappings moment key = false) :
    store.deleteMappings moment key = store := by
  unfold Store.findsMappings at h
  unfold Store.deleteMappings
  rw [if_neg]
  rintro ⟨hselects, hfound, -⟩
  rw [hselects, Bool.true_and] at h
  rw [h] at hfound
  cases hfound

/-- A removal that leaves the state alone where there is nothing to remove. -/
theorem run_removeIf (found : Bool) {removed : Bool} {removal : NodeCall Bool}
    (code : DhtResultCode) {last : LocalNode}
    (hremoval : removal.run node = .ok removed last)
    (habsent : found = false → last = node) :
    (removeIf found removal code).run node =
      .ok (if found then (if removed then .success else .removeFailed)
        else code) last := by
  cases found with
  | false =>
      rw [habsent rfl]
      rfl
  | true =>
      simp only [removeIf, if_true]
      rw [run_bind_of_ok hremoval]
      rfl

/-- Each table is removed from, and what one removal finds is its own. -/
theorem run_handleRemove {args : StringMap} {key : String}
    (hkey : args.lookup "key" = some key) :
    (handleRemove setting args message).run node =
      .ok (failWith (removeCode setting node key) message)
        { node with tables :=
          ((node.tables.remove key).deleteHashTable setting.moment
            key).deleteMappings setting.moment key } := by
  simp only [handleRemove, hkey, run_get_bind]
  rw [run_bind_of_ok (run_removeIf _ _ (run_remove key) fun habsent => by
    rw [remove_of_absent (by simpa [LocalNode.hasKey] using habsent)])]
  simp only [run_get_bind]
  rw [run_bind_of_ok (run_removeIf _ _ (run_deleteRow _ _) fun habsent => by
    rw [deleteHashTable_of_not_found habsent])]
  simp only [run_get_bind]
  rw [run_bind_of_ok (run_removeIf _ _ (run_deleteRow _ _) fun habsent => by
    rw [deleteMappings_of_not_found habsent])]
  have hhashTable : (node.tables.remove key).findsHashTable setting.moment key =
      node.tables.findsHashTable setting.moment key := (rfl)
  have hmappings : ((node.tables.remove key).deleteHashTable setting.moment
      key).findsMappings setting.moment key =
        node.tables.findsMappings setting.moment key := (rfl)
  simp only [hhashTable, hmappings, if_true, ite_self]
  rfl

/-- A removal of one table does not change what is found in the others. -/
theorem handleRemove_code {key : String}
    (hkey : query.args.lookup "key" = some key)
    (hrun : (handleRemove setting query.args message).run node =
      .ok outcome after) :
    ∃ code, outcome = failWith code message ∧ code ≠ .storePartial ∧
      (code = .success ↔ RemovesLast setting node key) := by
  rw [run_handleRemove hkey, EStateM.Result.ok.injEq] at hrun
  refine ⟨removeCode setting node key, hrun.1.symm, ?_, removeCode_eq_success⟩
  rcases removeCode_cases setting node key with h | h <;> simp [h]

theorem handleRemove_judges (h : query.query = "remove")
    (hipc : ipcMode = true) (hmessage : message.hasResponse = true)
    (hrun : (handleRemove setting query.args message).run node =
      .ok outcome after) :
    Judges (Served env setting node ipcMode query)
      (PartlyStored env setting node ipcMode query) message outcome := by
  cases hkey : query.args.lookup "key" with
  | none =>
      simp only [handleRemove, hkey] at hrun
      refine judges_parseError (by simp [h]) (fun hserved => ?_) hrun
      cases hserved <;> simp_all
  | some key =>
      obtain ⟨code, rfl, hpart, hsuccess⟩ := handleRemove_code hkey hrun
      refine failWith_judges (hsuccess.trans ?_)
        (iff_of_false hpart (not_partlyStored (by simp [h]))) hmessage
      refine ⟨fun hremoves => .remove h hipc key hkey hremoves,
        fun hserved => ?_⟩
      cases hserved <;> simp_all

theorem handleClear_judges (h : query.query = "clear")
    (hipc : ipcMode = true) (hmessage : message.hasResponse = true)
    (hrun : (handleClear message).run node = .ok outcome after) :
    Judges (Served env setting node ipcMode query)
      (PartlyStored env setting node ipcMode query) message outcome := by
  simp only [handleClear, run_bind_eq_ok, run_pure_eq_ok] at hrun
  obtain ⟨removed, middle, hremoved, rfl, -⟩ := hrun
  have htrue : removed = true := by
    have hrun : (LocalNode.removeAll).run node = .ok true
        { node with tables := { node.tables with data := ∅ } } := (rfl)
    rw [hrun, EStateM.Result.ok.injEq] at hremoved
    exact hremoved.1.symm
  subst htrue
  exact failWith_judges (iff_of_true rfl (.clear h hipc))
    (iff_of_false (by simp) (not_partlyStored (by simp [h]))) hmessage

/-- Every method that a query can name, and the names that none has. -/
theorem handleMethod_judges (hmessage : message.hasResponse = true)
    (hrun : (handleMethod env setting ipcMode query message).run node =
      .ok outcome after) :
    Judges (Served env setting node ipcMode query)
      (PartlyStored env setting node ipcMode query) message outcome := by
  unfold handleMethod at hrun
  split at hrun
  · next h =>
      obtain ⟨rfl, -⟩ := run_pure_eq_ok.mp hrun
      exact .of_success (.ping h) (not_partlyStored (by simp [h])) hmessage rfl
  split at hrun
  · next h => exact handleFindNode_judges h hmessage hrun
  split at hrun
  · next h => exact handleGetProviders_judges h hmessage hrun
  split at hrun
  · next h => exact handleGet_judges h hmessage hrun
  split at hrun
  · next h => exact handlePut_judges h hmessage hrun
  split at hrun
  · next h => exact handleMap_judges h hmessage hrun
  split at hrun
  · next h => exact handleRemove_judges h.1 h.2 hmessage hrun
  split at hrun
  · next h => exact handleClear_judges h.1 h.2 hmessage hrun
  · next hping hfind hproviders hget hput hmap hremove hclear =>
      refine judges_parseError hput (fun hserved => ?_) hrun
      cases hserved <;> simp_all

end Methods

end Neroshop.Rpc
