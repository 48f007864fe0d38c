import Neroshop.Node.Rejection
import Neroshop.Rpc.Coherence

/-!
# The reply to a put of the node's own client

The code of a put comes from the number of acknowledgements, and what the node
stores itself is looked at where there are none.  The method takes a value that
too few nodes have acknowledged for no failure, and the dispatcher turns every
code but a success into an error.
-/

namespace Neroshop.Rpc

open Neroshop.Foundation Neroshop.Node

/-! ## What is asked of the reply -/

/-- The code that the client reads from a reply; a response has none. -/
def DhtMessage.Reports (code : DhtResultCode) : DhtMessage → Prop
  | .response _ => code = .success
  | .error info => info.code = code.toInt
  | _ => False

/-- The codes for which the method sets an error. -/
def DhtResultCode.FailsPut (code : DhtResultCode) : Prop :=
  code ≠ .success ∧ code ≠ .storePartial

section Truthful

variable (env : Externals) (key value : String) (sent : Nat)
  (after : LocalNode)

def StoredLocally : Prop := after.tables.data.lookup key = some value

def CachedLocally : Prop := after.tables.hashTable.lookup key = some value

/-- What the reply says of a value that so many nodes have acknowledged. -/
structure Truthful (reply : DhtMessage) : Prop where
  success : reply.Reports .success →
    StoredLocally key value after ∧ CachedLocally key value after ∧
      (replicationFactor ≤ sent ∨ isValuePublishable env value = .ok false)
  partly : reply.Reports .storePartial → 0 < sent ∧ sent < replicationFactor
  toSelf : reply.Reports .storeToSelf →
    sent = 0 ∧ StoredLocally key value after ∧ CachedLocally key value after
  failed : sent = 0 → ¬ StoredLocally key value after →
    reply.Reports .storeFailed
  errors : reply.hasError = true → ∃ code, reply.Reports code ∧ code.FailsPut

end Truthful

/-! ## What is stored -/

section Tables

variable {env : Externals} {moment : Moment} {tables : Store}
  {key value : String}

/-- What a call makes of an offer: it stores it, keeps a newer one, or fails. -/
inductive OfferOutcome (env : Externals) (moment : Moment) (tables : Store)
    (key value : String) : Except Fault Bool → Store → Prop
  | stores (after : Store) (h : StoresOffer env moment tables key value)
      (hdata : after.data.lookup key = some value)
      (hhashTable : after.hashTable = tables.hashTable) :
      OfferOutcome env moment tables key value (.ok true) after
  | keeps (h : KeepsNewer env moment tables key value)
      (hstores : ¬ StoresOffer env moment tables key value)
      (hdata : tables.data.lookup key ≠ some value) :
      OfferOutcome env moment tables key value (.ok true) tables
  | fails (result : Except Fault Bool) (after : Store)
      (hresult : result ≠ .ok true)
      (hstores : ¬ StoresOffer env moment tables key value)
      (hkeeps : ¬ KeepsNewer env moment tables key value)
      (hdata : after.data.lookup key ≠ some value) :
      OfferOutcome env moment tables key value result after

theorem StoresOffer.not_keepsNewer (h : StoresOffer env moment tables key value) :
    ¬ KeepsNewer env moment tables key value := by
  rintro ⟨current, json, hlookup, hne, hdocument, -, hkeep⟩
  rcases h with hstored | ⟨other, -, -, hreplaces⟩
  · rw [hstored, Option.some.injEq] at hlookup
    exact hne hlookup.symm
  · rw [hreplaces current hlookup] at hkeep
    cases hkeep

theorem offerOutcome_refused {result : Except Fault Bool} {after : Store}
    (hresult : result ≠ .ok true) (h : tables.data.lookup key ≠ some value)
    (hdata : after.data.lookup key ≠ some value)
    (hdocument : ∀ json, validateDocument env key value = .ok (some json) →
      expiry moment.clock json ≠ .current) :
    OfferOutcome env moment tables key value result after := by
  refine .fails result after hresult ?_ (not_keepsNewer_of_document hdocument)
    hdata
  exact not_storesOffer h fun json hjson hexpiry =>
    absurd hexpiry (hdocument json hjson)

theorem put_offerOutcome (env : Externals) (moment : Moment) (tables : Store)
    (key value : String) :
    OfferOutcome env moment tables key value (put env moment tables key value).1
      (put env moment tables key value).2 := by
  have houtcome := put_outcome env moment tables key value
  generalize (put env moment tables key value).1 = result at houtcome
  generalize (put env moment tables key value).2 = after at houtcome
  cases houtcome with
  | stored h => exact .stores _ (.inl h) h rfl
  | fault fault h hdocument =>
      exact offerOutcome_refused (by simp) h h (by simp [hdocument])
  | unaccepted h hdocument =>
      exact offerOutcome_refused (by simp) h h (by simp [hdocument])
  | malformedExpiry json h hdocument hexpiry =>
      exact offerOutcome_refused (by simp) h h (by simp [hdocument, hexpiry])
  | expired json h hdocument hexpiry =>
      exact offerOutcome_refused (by simp) h (by simp)
        (by simp [hdocument, hexpiry])
  | inserted json h hdocument hexpiry =>
      exact .stores _ (.inr ⟨json, hdocument, hexpiry, by simp [h]⟩) (by simp)
        rfl
  | updated json current h hne hdocument hexpiry =>
      have hother : tables.data.lookup key ≠ some value := by
        rw [h, Ne, Option.some.injEq]
        exact hne
      have hstores : judgeTexts env value current ≠ .ok .replace →
          ¬ StoresOffer env moment tables key value :=
        fun hjudge => not_storesOffer hother fun _ _ _ => ⟨current, h, hjudge⟩
      simp only [Node.set, h, Option.getD_some]
      cases hjudge : judgeTexts env value current with
      | error fault =>
          exact .fails _ _ (by simp) (hstores (by simp [hjudge]))
            (not_keepsNewer_of_judge h (by simp [hjudge])) hother
      | ok update =>
      cases update with
      | reject =>
          exact .fails _ _ (by simp) (hstores (by simp [hjudge]))
            (not_keepsNewer_of_judge h (by simp [hjudge])) hother
      | keep =>
          exact .keeps ⟨current, json, h, hne, hdocument, hexpiry, hjudge⟩
            (hstores (by simp [hjudge])) hother
      | replace =>
          refine .stores _ (.inr ⟨json, hdocument, hexpiry, ?_⟩) (by simp) rfl
          intro stored hstored
          rw [h, Option.some.injEq] at hstored
          rw [← hstored, hjudge]

theorem putCached_eq (env : Externals) (moment : Moment) (tables : Store)
    (key value : String) :
    putCached env moment tables key value =
      if (put env moment tables key value).1 = .ok true
      then cacheRow moment (put env moment tables key value).2 key value
      else (put env moment tables key value).2 := by
  rw [putCached]
  cases put env moment tables key value with
  | mk result after =>
      split
      · next heq =>
          obtain ⟨rfl, rfl⟩ := Prod.mk.inj heq
          exact (if_pos rfl).symm
      · next hfails heq =>
          obtain ⟨rfl, rfl⟩ := Prod.mk.inj heq
          exact (if_neg hfails).symm

theorem data_cacheRow : (cacheRow moment tables key value).data = tables.data := by
  rw [cacheRow]
  split <;> rfl

theorem lookup_cacheRow :
    (cacheRow moment tables key value).hashTable.lookup key = some value ↔
      moment.executes .upsertHashTable = true ∨
        tables.hashTable.lookup key = some value := by
  rw [cacheRow]
  split
  · next hexecutes => simp [hexecutes]
  · next hfails => simp [hfails]

/-- The offer is in `data` afterwards where it comes to be stored. -/
theorem data_putCached_iff :
    (putCached env moment tables key value).data.lookup key = some value ↔
      StoresOffer env moment tables key value := by
  have houtcome := put_offerOutcome env moment tables key value
  have hdata : (putCached env moment tables key value).data =
      (put env moment tables key value).2.data := by
    rw [putCached_eq]
    split
    · exact data_cacheRow
    · rfl
  rw [hdata]
  generalize (put env moment tables key value).1 = result at houtcome
  generalize (put env moment tables key value).2 = after at houtcome ⊢
  cases houtcome with
  | stores _ h hstored => exact iff_of_true hstored h
  | keeps _ hstores hother => exact iff_of_false hother hstores
  | fails _ _ _ hstores _ hother => exact iff_of_false hother hstores

/-- A row is written for each offer that `store` does not refuse. -/
theorem hashTable_putCached_iff
    (h : StoresOffer env moment tables key value ∨
      KeepsNewer env moment tables key value) :
    (putCached env moment tables key value).hashTable.lookup key = some value ↔
      moment.executes .upsertHashTable = true ∨
        tables.hashTable.lookup key = some value := by
  have houtcome := put_offerOutcome env moment tables key value
  rw [putCached_eq]
  generalize (put env moment tables key value).1 = result at houtcome
  generalize (put env moment tables key value).2 = after at houtcome ⊢
  cases houtcome with
  | stores _ _ _ hhashTable =>
      rw [if_pos rfl, lookup_cacheRow, hhashTable]
  | keeps => rw [if_pos rfl, lookup_cacheRow]
  | fails _ _ _ hstores hkeeps => exact (h.elim hstores hkeeps).elim

theorem put_returns_true_iff :
    (put env moment tables key value).1 = .ok true ↔
      StoresOffer env moment tables key value ∨
        KeepsNewer env moment tables key value := by
  have houtcome := put_offerOutcome env moment tables key value
  generalize (put env moment tables key value).1 = result at houtcome ⊢
  generalize (put env moment tables key value).2 = after at houtcome
  cases houtcome with
  | stores _ h => exact iff_of_true rfl (.inl h)
  | keeps h => exact iff_of_true rfl (.inr h)
  | fails _ _ hresult hstores hkeeps =>
      exact iff_of_false hresult fun h => h.elim hstores hkeeps

end Tables

section Calls

variable {env : Externals} {setting : Setting} {node last : LocalNode}
  {key value : String} {cached : Option Bool}

theorem storeAndCache_cached_iff
    (hrun : (storeAndCache env setting key value).run node = .ok cached last) :
    cached ≠ none ↔
      (put env setting.moment node.tables key value).1 = .ok true ∧
        setting.moment.executes .upsertHashTable = true := by
  have hstore := run_store env setting node key value
  rw [storeAndCache, run_bind_eq_ok] at hrun
  obtain ⟨stored, middle, hstored, hrun⟩ := hrun
  rw [hstored] at hstore
  have hput : (put env setting.moment node.tables key value).1 = .ok stored := by
    split at hstore
    · next heq =>
        rw [heq, (EStateM.Result.ok.inj hstore).1]
    · cases hstore
  cases stored with
  | false =>
      obtain ⟨rfl, -⟩ := run_pure_eq_ok.mp hrun
      simp [hput]
  | true =>
      rw [if_pos rfl, run_bind_of_ok (run_cache ..)] at hrun
      cases hexecutes : setting.moment.executes .upsertHashTable with
      | false =>
          rw [hexecutes] at hrun
          obtain ⟨rfl, -⟩ := run_pure_eq_ok.mp hrun
          simp
      | true =>
          simp only [hexecutes, if_true, run_bind_eq_ok, run_pure_eq_ok] at hrun
          obtain ⟨publishable, -, -, -, -, -, rfl, -⟩ := hrun
          simp [hput]

theorem storeAndCache_locally
    (hrun : (storeAndCache env setting key value).run node = .ok cached last) :
    last.tables.data = (putCached env setting.moment node.tables key value).data ∧
      last.tables.hashTable =
        (putCached env setting.moment node.tables key value).hashTable := by
  have hcopies := storeAndCache_copies env setting node key value
  rwa [stateAfter, hrun] at hcopies

end Calls

/-! ## What is replied -/

section Replies

variable {env : Externals} {setting : Setting} {node middle after : LocalNode}
  {parseFromArray : List UInt8 → Option DhtMessage} {request : List UInt8}
  {query : Query} {key value : String} {sent : Nat} {reply message : DhtMessage}
  {code : DhtResultCode}

theorem finishReply_reports {other : DhtResultCode}
    (hmessage : code = .success → message.hasResponse = true) :
    (finishReply code message).Reports other ↔ other = code := by
  by_cases hcode : code = .success
  · have hresponse := hmessage hcode
    rw [hcode, finishReply_of_success hresponse]
    cases message with
    | response response => rfl
    | notSet | query | error => cases hresponse
  · have hreports : (finishReply code message).Reports other ↔
        code.toInt = other.toInt := by
      cases message <;>
        simp [finishReply, hcode, DhtMessage.onError, DhtMessage.hasError,
          DhtMessage.hasResponse, DhtMessage.Reports]
    rw [hreports]
    exact ⟨fun h => (toInt_inj h).symm, fun h => h ▸ rfl⟩

theorem finishReply_hasError
    (hmessage : code = .success → message.hasResponse = true) :
    (finishReply code message).hasError = true ↔ code ≠ .success := by
  by_cases hcode : code = .success
  · have hresponse := hmessage hcode
    rw [hcode, finishReply_of_success hresponse]
    cases message with
    | response response => simp [DhtMessage.hasError]
    | notSet | query | error => cases hresponse
  · exact iff_of_true (finishReply_of_failure message hcode).1 hcode

/-- The method leaves the message of a success as it was. -/
theorem put_outcome_code (hmessage : message.hasResponse = true)
    {outcome : Outcome}
    (houtcome : (if code = .storePartial then (code, message)
      else failWith code message) = outcome) :
    outcome.1 = code ∧
      (code = .success → outcome.2.hasResponse = true) := by
  subst houtcome
  split
  · exact ⟨rfl, fun _ => hmessage⟩
  · refine ⟨failWith_eq code, fun hcode => ?_⟩
    rw [failWith_of_success hcode]
    exact hmessage

/-- The reply says the code of the put, and nothing else of it. -/
theorem run_put (hparse : parseFromArray request = some (.query query))
    (hversion : query.version = dhtVersion) (hput : query.query = "put")
    (hkey : query.args.lookup "key" = some key)
    (hvalue : query.args.lookup "value" = some value)
    (hsent : (LocalNode.sendPut env setting key value).run node =
      .ok sent middle)
    (hrun : (protobufProcess env setting parseFromArray request true).run node =
      .ok reply after) :
    ∃ cached, (storeAndCache env setting key value).run middle =
        .ok cached after ∧
      (∀ code, reply.Reports code ↔ code = putCode sent cached) ∧
      (reply.hasError = true ↔ putCode sent cached ≠ .success) := by
  rw [protobufProcess_query hparse hversion, run_get_bind,
    handleMethod_of_put hput, run_bind_eq_ok] at hrun
  obtain ⟨outcome, last, hhandle, hrun⟩ := hrun
  obtain ⟨rfl, rfl⟩ := run_pure_eq_ok.mp hrun
  simp only [handlePut, hkey, hvalue, Bool.not_true, Bool.false_eq_true,
    if_false] at hhandle
  rw [run_bind_of_ok hsent, run_bind_eq_ok] at hhandle
  obtain ⟨cached, stored, hcached, hhandle⟩ := hhandle
  obtain ⟨houtcome, rfl⟩ := run_pure_eq_ok.mp hhandle
  obtain ⟨hcode, hmessage⟩ := put_outcome_code rfl houtcome
  rw [← hcode] at hmessage
  refine ⟨cached, hcached, fun code => ?_, ?_⟩
  · rw [finishReply_reports hmessage, hcode]
  · rw [finishReply_hasError hmessage, hcode]

/-- The acknowledgements decide where there are any. -/
theorem putCode_cases (cached : Option Bool)
    (hpublish : cached = some false → sent = 0) :
    sent = 0 ∧ cached = none ∧ putCode sent cached = .storeFailed ∨
    sent = 0 ∧ cached = some false ∧ putCode sent cached = .success ∨
    sent = 0 ∧ cached = some true ∧ putCode sent cached = .storeToSelf ∨
    0 < sent ∧ sent < replicationFactor ∧
      putCode sent cached = .storePartial ∨
    replicationFactor ≤ sent ∧ putCode sent cached = .success := by
  by_cases hsent : sent = 0
  · subst hsent
    rcases cached with _ | (_ | _) <;> decide
  · have hpositive := Nat.pos_of_ne_zero hsent
    by_cases hfactor : sent < replicationFactor
    · refine .inr (.inr (.inr (.inl ⟨hpositive, hfactor, ?_⟩)))
      exact (putCode_eq_storePartial hpublish).mpr ⟨hpositive, hfactor⟩
    · have henough := Nat.le_of_not_lt hfactor
      refine .inr (.inr (.inr (.inr ⟨henough, ?_⟩)))
      exact (putCode_eq_success hpublish).mpr (.inl henough)

/-- A reply is judged by its one code. -/
theorem truthful_iff_code (hreports : ∀ other, reply.Reports other ↔ other = code)
    (herror : reply.hasError = true ↔ code ≠ .success) :
    Truthful env key value sent after reply ↔
      (code = .success → StoredLocally key value after ∧
        CachedLocally key value after ∧
        (replicationFactor ≤ sent ∨
          isValuePublishable env value = .ok false)) ∧
      (code = .storePartial → 0 < sent ∧ sent < replicationFactor) ∧
      (code = .storeToSelf → sent = 0 ∧ StoredLocally key value after ∧
        CachedLocally key value after) ∧
      (sent = 0 → ¬ StoredLocally key value after → code = .storeFailed) ∧
      (code ≠ .success → code.FailsPut) := by
  constructor
  · intro h
    refine ⟨fun hcode => h.success ((hreports _).mpr hcode.symm),
      fun hcode => h.partly ((hreports _).mpr hcode.symm),
      fun hcode => h.toSelf ((hreports _).mpr hcode.symm),
      fun hnone hstored => ((hreports _).mp (h.failed hnone hstored)).symm,
      fun hcode => ?_⟩
    obtain ⟨other, hother, hfails⟩ := h.errors (herror.mpr hcode)
    exact (hreports other).mp hother ▸ hfails
  · rintro ⟨hsuccess, hpartly, htoSelf, hfailed, herrors⟩
    refine ⟨fun h => hsuccess ((hreports _).mp h).symm,
      fun h => hpartly ((hreports _).mp h).symm,
      fun h => htoSelf ((hreports _).mp h).symm,
      fun hnone hstored => (hreports _).mpr (hfailed hnone hstored).symm,
      fun h => ⟨code, (hreports code).mpr rfl, herrors (herror.mp h)⟩⟩

/--
The reply is truthful exactly where nobody has acknowledged the value, and what
is cached is not older than what is stored, or enough nodes have, and it is
stored and cached here as well.
-/
theorem put_truthful_iff (hparse : parseFromArray request = some (.query query))
    (hversion : query.version = dhtVersion) (hput : query.query = "put")
    (hkey : query.args.lookup "key" = some key)
    (hvalue : query.args.lookup "value" = some value)
    (hsent : (LocalNode.sendPut env setting key value).run node =
      .ok sent middle)
    (hrun : (protobufProcess env setting parseFromArray request true).run node =
      .ok reply after) :
    Truthful env key value sent after reply ↔
      sent = 0 ∧ (setting.moment.executes .upsertHashTable = true →
        ¬ KeepsNewer env setting.moment middle.tables key value) ∨
      replicationFactor ≤ sent ∧
        StoresOffer env setting.moment middle.tables key value ∧
        (setting.moment.executes .upsertHashTable = true ∨
          middle.tables.hashTable.lookup key = some value) := by
  obtain ⟨cached, hcached, hreports, herror⟩ :=
    run_put hparse hversion hput hkey hvalue hsent hrun
  have hunpublished : cached = some false →
      isValuePublishable env value = .ok false := by
    rintro rfl
    exact publishable_of_cached hcached
  have hpublish : cached = some false → sent = 0 := fun h =>
    (sendPut_unpublished (hunpublished h) hsent).1
  have hboth := storeAndCache_cached_iff hcached
  rw [put_returns_true_iff] at hboth
  obtain ⟨hdata, hhashTable⟩ := storeAndCache_locally hcached
  have hstored : StoredLocally key value after ↔
      StoresOffer env setting.moment middle.tables key value := by
    rw [StoredLocally, hdata, data_putCached_iff]
  have hrow : StoresOffer env setting.moment middle.tables key value →
      (CachedLocally key value after ↔
        setting.moment.executes .upsertHashTable = true ∨
          middle.tables.hashTable.lookup key = some value) := by
    intro hstores
    rw [CachedLocally, hhashTable, hashTable_putCached_iff (.inl hstores)]
  rw [truthful_iff_code hreports herror, hstored]
  rcases putCode_cases cached hpublish with
    ⟨rfl, rfl, hcode⟩ | ⟨rfl, rfl, hcode⟩ | ⟨rfl, rfl, hcode⟩ |
      ⟨hpositive, hfactor, hcode⟩ | ⟨hfactor, hcode⟩
  · rw [hcode]
    refine iff_of_true (by simp [DhtResultCode.FailsPut]) (.inl ⟨rfl, ?_⟩)
    intro hexecutes hkeeps
    exact hboth.mpr ⟨.inr hkeeps, hexecutes⟩ rfl
  · obtain ⟨hoffer, hexecutes⟩ := hboth.mp nofun
    rw [hcode]
    constructor
    · rintro ⟨hsuccess, -⟩
      exact .inl ⟨rfl, fun _ => (hsuccess rfl).1.not_keepsNewer⟩
    · rintro (⟨-, hkeeps⟩ | ⟨hfactor, -⟩)
      · have hstores := hoffer.resolve_right (hkeeps hexecutes)
        have hheld := (hrow hstores).mpr (.inl hexecutes)
        exact ⟨fun _ => ⟨hstores, hheld, .inr (hunpublished rfl)⟩, nofun, nofun,
          fun _ h => absurd hstores h, fun h => absurd rfl h⟩
      · exact absurd hfactor (by decide)
  · obtain ⟨hoffer, hexecutes⟩ := hboth.mp nofun
    rw [hcode]
    constructor
    · rintro ⟨-, -, htoSelf, -⟩
      exact .inl ⟨rfl, fun _ => (htoSelf rfl).2.1.not_keepsNewer⟩
    · rintro (⟨-, hkeeps⟩ | ⟨hfactor, -⟩)
      · have hstores := hoffer.resolve_right (hkeeps hexecutes)
        have hheld := (hrow hstores).mpr (.inl hexecutes)
        exact ⟨nofun, nofun, fun _ => ⟨rfl, hstores, hheld⟩,
          fun _ h => absurd hstores h, fun _ => ⟨nofun, nofun⟩⟩
      · exact absurd hfactor (by decide)
  · rw [hcode]
    refine iff_of_false ?_ ?_
    · rintro ⟨-, -, -, -, herrors⟩
      exact (herrors nofun).2 rfl
    · rintro (⟨rfl, -⟩ | ⟨henough, -⟩)
      · exact Nat.lt_irrefl 0 hpositive
      · exact Nat.not_le_of_lt hfactor henough
  · have hsome : sent ≠ 0 := by
      rintro rfl
      exact absurd hfactor (by decide)
    rw [hcode]
    constructor
    · rintro ⟨hsuccess, -⟩
      obtain ⟨hstores, hheld, -⟩ := hsuccess rfl
      exact .inr ⟨hfactor, hstores, (hrow hstores).mp hheld⟩
    · rintro (⟨hnone, -⟩ | ⟨-, hstores, hwritten⟩)
      · exact absurd hnone hsome
      · exact ⟨fun _ => ⟨hstores, (hrow hstores).mpr hwritten, .inl hfactor⟩,
          nofun, nofun, fun h => absurd h hsome, fun h => absurd rfl h⟩

end Replies

/-! ## An expired message -/

/-- So many nodes acknowledge every value. -/
def acknowledgedBy (sent : Nat) : Setting :=
  { lonelySetting with publish := fun _ _ => pure sent }

def messagePut (text : String) : WireQuery :=
  (ClientCall.put sampleKey text).sent

def putReply (sent : Nat) (text : String) : NodeCall DhtMessage :=
  protobufProcess expiringExternals (acknowledgedBy sent)
    (WireQuery.parser [messagePut text]) (messagePut text).bytes true

theorem sendPut_acknowledged (sent : Nat) {text : String}
    (hpublish : isValuePublishable expiringExternals text = .ok true)
    (node : LocalNode) :
    (LocalNode.sendPut expiringExternals (acknowledgedBy sent) sampleKey
      text).run node = .ok sent node := by
  rw [LocalNode.sendPut, run_ofExcept_bind hpublish, if_pos rfl]
  rfl

theorem returns_of_match {call : NodeCall DhtMessage} {node : LocalNode}
    (h : (match call.run node with
      | .ok _ _ => true
      | .error _ _ => false) = true) : Returns call node := by
  cases hrun : call.run node with
  | ok reply after => exact ⟨reply, after, hrun⟩
  | error fault after =>
      rw [hrun] at h
      cases h

theorem putReply_returns :
    Returns (putReply 1 expiredText) lonelyNode ∧
      Returns (putReply 3 expiredText) lonelyNode :=
  ⟨returns_of_match (by decide +kernel), returns_of_match (by decide +kernel)⟩

theorem expiredText_publishable :
    isValuePublishable expiringExternals expiredText = .ok true := by
  decide +kernel

/-- Of an expired value, whatever number of nodes have acknowledged it. -/
theorem putReply_expired {sent : Nat} {reply : DhtMessage} {after : LocalNode}
    (hrun : (putReply sent expiredText).run lonelyNode = .ok reply after) :
    ∃ cached, cached ≠ some false ∧
      (∀ code, reply.Reports code ↔ code = putCode sent cached) ∧
      (reply.hasError = true ↔ putCode sent cached ≠ .success) ∧
      ¬ StoredLocally sampleKey expiredText after := by
  have hparse := WireQuery.parser_bytes_head (messagePut expiredText) []
  obtain ⟨cached, hcached, hreports, herror⟩ := run_put hparse rfl rfl
    (put_sent_key ..) (put_sent_value ..)
    (sendPut_acknowledged sent expiredText_publishable lonelyNode) hrun
  have hpublishable : cached ≠ some false := by
    rintro rfl
    have hcontra := publishable_of_cached hcached
    rw [expiredText_publishable] at hcontra
    cases hcontra
  refine ⟨cached, hpublishable, hreports, herror, fun hstored => ?_⟩
  have hmoment : (acknowledgedBy sent).moment = lonelySetting.moment := rfl
  rw [StoredLocally, (storeAndCache_locally hcached).1, hmoment] at hstored
  exact absurd hstored (by decide)

/--
Acknowledged by one node, the value is reported as partly stored, by an error;
acknowledged by three, it is a success and the node itself has not stored it.
-/
theorem put_reports_falsely :
    (∃ reply after, (putReply 1 expiredText).run lonelyNode =
        .ok reply after ∧ reply.Reports .storePartial ∧
      ¬ Truthful expiringExternals sampleKey expiredText 1 after reply) ∧
    ∃ reply after, (putReply 3 expiredText).run lonelyNode =
        .ok reply after ∧ reply.Reports .success ∧
      ¬ Truthful expiringExternals sampleKey expiredText 3 after reply := by
  obtain ⟨⟨first, firstAfter, hfirst⟩, second, secondAfter, hsecond⟩ :=
    putReply_returns
  obtain ⟨firstCached, hfirstCached, hpartly, herror, -⟩ :=
    putReply_expired hfirst
  obtain ⟨secondCached, hsecondCached, hsuccess, -, hunstored⟩ :=
    putReply_expired hsecond
  have hone : putCode 1 firstCached = .storePartial :=
    (putCode_eq_storePartial fun h => absurd h hfirstCached).mpr (by decide)
  have hthree : putCode 3 secondCached = .success :=
    (putCode_eq_success fun h => absurd h hsecondCached).mpr (.inl (by decide))
  rw [hone] at hpartly herror
  rw [hthree] at hsuccess
  refine ⟨⟨first, firstAfter, hfirst, (hpartly _).mpr rfl, fun h => ?_⟩, second,
    secondAfter, hsecond, (hsuccess _).mpr rfl, fun h => ?_⟩
  · obtain ⟨code, hcode, hfails⟩ := h.errors (herror.mpr nofun)
    exact hfails.2 ((hpartly code).mp hcode)
  · exact hunstored (h.success ((hsuccess _).mpr rfl)).1

def messageNode : LocalNode := { lonelyNode with tables := messageStore }

theorem messageText_kept :
    ¬ KeepsNewer expiringExternals lonelySetting.moment messageNode.tables
      sampleKey messageText := by
  rintro ⟨current, json, hcurrent, hne, -⟩
  have hstored : messageNode.tables.data.lookup sampleKey = some messageText := by
    decide
  rw [hstored, Option.some.injEq] at hcurrent
  exact hne hcurrent.symm

theorem put_truthful_iff_stored :
    ∃ reply after, (putReply 0 messageText).run messageNode = .ok reply after ∧
      Truthful expiringExternals sampleKey messageText 0 after reply := by
  obtain ⟨reply, after, hrun⟩ : Returns (putReply 0 messageText) messageNode :=
    returns_of_match (by decide +kernel)
  have hparse := WireQuery.parser_bytes_head (messagePut messageText) []
  refine ⟨reply, after, hrun, ?_⟩
  exact (put_truthful_iff hparse rfl rfl (put_sent_key ..) (put_sent_value ..)
    (sendPut_acknowledged 0 (by decide) messageNode) hrun).mpr
      (.inl ⟨rfl, fun _ => messageText_kept⟩)

end Neroshop.Rpc
