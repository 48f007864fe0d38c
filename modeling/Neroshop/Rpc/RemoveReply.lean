import Neroshop.Rpc.PutReply

/-!
# The reply to a remove of the node's own client

A remove deletes from `data`, from `hash_table` and from `mappings`.  A table is
deleted from where a query finds the key in it, and each removal replaces the
code of the one before, so the reply is about the last removal that was made.
-/

namespace Neroshop.Rpc

open Neroshop.Foundation Neroshop.Node

section Removal

variable (moment : Moment) (tables : Store) (key : String)

/-- The query and the delete are executed where the table has the key. -/
def ClearsHashTable : Prop :=
  (tables.hashTable.lookup key).isSome →
    moment.executes .selectHashTable ∧ moment.executes .deleteHashTable

def ClearsMappings : Prop :=
  (tables.mappings.any fun row => row.key = key) →
    moment.executes .selectMappings ∧ moment.executes .deleteMappings

/-- Of the deletes that are sent, the last one fails. -/
inductive LastDeleteFails : Prop
  | mappings (found : tables.findsMappings moment key = true)
      (fails : moment.executes .deleteMappings = false)
  | hashTable (unfound : tables.findsMappings moment key = false)
      (found : tables.findsHashTable moment key = true)
      (fails : moment.executes .deleteHashTable = false)

end Removal

section Removed

variable {moment : Moment} {tables : Store} {key : String}

theorem removed_iff_clears :
    (tables.discard moment key).rows key = (none, none, []) ↔
      ClearsHashTable moment tables key ∧ ClearsMappings moment tables key := by
  rw [Store.discard_rows, Prod.mk.injEq, Prod.mk.injEq]
  simp only [true_and]
  refine and_congr ?_ ?_
  · unfold ClearsHashTable
    split
    · next hexecutes => exact iff_of_true rfl fun _ => hexecutes
    · next hfails =>
        rw [← Option.not_isSome_iff_eq_none]
        exact ⟨fun hnone hsome => absurd hsome hnone,
          fun hclears hsome => hfails (hclears hsome)⟩
  · unfold ClearsMappings
    split
    · next hexecutes => exact iff_of_true rfl fun _ => hexecutes
    · next hfails =>
        have hany : (tables.mappings.filter fun row => row.key = key) = [] ↔
            ¬ (tables.mappings.any fun row => row.key = key) = true := by
          simp [List.filter_eq_nil_iff]
        rw [hany]
        exact ⟨fun hnone hsome => absurd hsome hnone,
          fun hclears hsome => hfails (hclears hsome)⟩

variable {setting : Setting} {node : LocalNode}

theorem removesLast_iff :
    RemovesLast setting node key ↔
      ¬ LastDeleteFails setting.moment node.tables key := by
  unfold RemovesLast
  constructor
  · rintro hremoves (⟨hfound, hfails⟩ | ⟨hunfound, hfound, hfails⟩)
    · rw [if_pos hfound, hfails] at hremoves
      cases hremoves
    · rw [hunfound, if_neg Bool.false_ne_true, if_pos hfound, hfails] at hremoves
      cases hremoves
  · intro hlast
    split
    · next hfound =>
        rw [← Bool.not_eq_false]
        exact fun hfails => hlast (.mappings hfound hfails)
    · next hunfound =>
      rw [Bool.not_eq_true] at hunfound
      split
      · next hfound =>
          rw [← Bool.not_eq_false]
          exact fun hfails => hlast (.hashTable hunfound hfound hfails)
      · trivial

/-- A delete that fails leaves its rows. -/
theorem not_lastDeleteFails_of_clears
    (hhashTable : ClearsHashTable moment tables key)
    (hmappings : ClearsMappings moment tables key) :
    ¬ LastDeleteFails moment tables key := by
  rintro (⟨hfound, hfails⟩ | ⟨-, hfound, hfails⟩)
  · rw [Store.findsMappings, Bool.and_eq_true] at hfound
    have hdelete := (hmappings hfound.2).2
    rw [hfails] at hdelete
    cases hdelete
  · rw [Store.findsHashTable, Bool.and_eq_true] at hfound
    have hdelete := (hhashTable hfound.2).2
    rw [hfails] at hdelete
    cases hdelete

end Removed

section Replies

variable (env : Externals) (setting : Setting) (node : LocalNode)
  {parseFromArray : List UInt8 → Option DhtMessage} {request : List UInt8}
  {query : Query} {key : String}

/-- The reply says the code of the last removal, and nothing else of it. -/
theorem run_remove_request
    (hparse : parseFromArray request = some (.query query))
    (hversion : query.version = dhtVersion) (hremove : query.query = "remove")
    (hkey : query.args.lookup "key" = some key) :
    ∃ reply, (protobufProcess env setting parseFromArray request true).run node =
        .ok reply { node with tables := node.tables.discard setting.moment key } ∧
      ∀ code, reply.Reports code ↔ code = removeCode setting node key := by
  have hdispatch : ∀ message, handleMethod env setting true query message =
      handleRemove setting query.args message := by
    intro message
    unfold handleMethod
    simp [hremove]
  rw [protobufProcess_query hparse hversion, run_get_bind, hdispatch,
    run_bind_of_ok (run_handleRemove hkey)]
  refine ⟨_, rfl, fun code => ?_⟩
  rw [finishReply_reports, failWith_eq]
  intro hcode
  rw [failWith_eq] at hcode
  rw [failWith_of_success hcode]
  simp [startResponse]

/--
A remove says success exactly where it has removed the key from every table,
where the last delete fails, or where each table that has the key is found to
have it and deleted from.
-/
theorem remove_reports_iff
    (hparse : parseFromArray request = some (.query query))
    (hversion : query.version = dhtVersion) (hremove : query.query = "remove")
    (hkey : query.args.lookup "key" = some key) :
    ∃ reply after,
      (protobufProcess env setting parseFromArray request true).run node =
        .ok reply after ∧
      ((reply.Reports .success ↔ after.tables.rows key = (none, none, [])) ↔
        LastDeleteFails setting.moment node.tables key ∨
        ClearsHashTable setting.moment node.tables key ∧
          ClearsMappings setting.moment node.tables key) := by
  obtain ⟨reply, hrun, hreports⟩ :=
    run_remove_request env setting node hparse hversion hremove hkey
  refine ⟨reply, _, hrun, ?_⟩
  rw [hreports, eq_comm, removeCode_eq_success, removesLast_iff,
    removed_iff_clears]
  constructor
  · intro h
    by_cases hlast : LastDeleteFails setting.moment node.tables key
    · exact .inl hlast
    · exact .inr (h.mp hlast)
  · rintro (hlast | hclears)
    · exact iff_of_false (not_not.mpr hlast) fun hclears =>
        not_lastDeleteFails_of_clears hclears.1 hclears.2 hlast
    · exact iff_of_true (not_lastDeleteFails_of_clears hclears.1 hclears.2)
        hclears

end Replies

/-! ## A row that stays -/

/-- A value that is cached and mapped, and no longer in memory. -/
def cachedNode : LocalNode :=
  { lonelyNode with
    tables :=
      { data := ∅
        hashTable := (∅ : Finmap fun _ : String => String).insert sampleKey
          messageText
        mappings := [⟨"hello", sampleKey, "message"⟩] } }

/-- The statement fails, and no other one. -/
def failing (statement : SqlStatement) : Setting :=
  { lonelySetting with
    moment := ⟨lonelySetting.moment.clock, fun other => other ≠ statement⟩ }

def removeSent : WireQuery := (ClientCall.remove sampleKey).sent

theorem remove_sent_key :
    removeSent.toQuery.args.lookup "key" = some sampleKey := by
  simp [removeSent, ClientCall.sent, WireQuery.toQuery, ClientCall.args]

/-- The delete from `hash_table` fails, and that from `mappings` does not. -/
theorem remove_reports_falsely :
    ∃ reply after, (protobufProcess expiringExternals (failing .deleteHashTable)
        (WireQuery.parser [removeSent]) removeSent.bytes true).run cachedNode =
          .ok reply after ∧
      reply.Reports .success ∧
      after.tables.hashTable.lookup sampleKey = some messageText := by
  obtain ⟨reply, hrun, hreports⟩ := run_remove_request expiringExternals
    (failing .deleteHashTable) cachedNode
    (WireQuery.parser_bytes_head removeSent []) rfl rfl remove_sent_key
  refine ⟨reply, _, hrun, ?_, by decide⟩
  rw [hreports, eq_comm]
  decide

theorem remove_reports_iff_executed :
    ∃ reply after, (protobufProcess expiringExternals lonelySetting
        (WireQuery.parser [removeSent]) removeSent.bytes true).run cachedNode =
          .ok reply after ∧
      (reply.Reports .success ↔
        after.tables.rows sampleKey = (none, none, [])) := by
  obtain ⟨reply, after, hrun, hiff⟩ := remove_reports_iff expiringExternals
    lonelySetting cachedNode
    (WireQuery.parser_bytes_head removeSent []) rfl rfl remove_sent_key
  exact ⟨reply, after, hrun,
    hiff.mpr (.inr ⟨fun _ => ⟨rfl, rfl⟩, fun _ => ⟨rfl, rfl⟩⟩)⟩

end Neroshop.Rpc
