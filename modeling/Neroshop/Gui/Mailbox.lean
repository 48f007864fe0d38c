import Neroshop.Gui.Readers
import Neroshop.Market.Message
import Neroshop.Node.Indexing
import Neroshop.Node.Permanence
import Neroshop.Rpc.Coherence
import Neroshop.Rpc.Removal

/-!
# Messages from the sender to the reader

A message is in the recipient's mailbox when the recipient's node stores it and
has mapped it.  It stays there while nothing displaces it and nothing under its
key has expired, whatever else is put and mapped.  The recipient then reads the
text and the sender that were encrypted, and whether the text is signed.
-/

namespace Neroshop.Gui

open Neroshop.Foundation Neroshop.Market Neroshop.Node Neroshop.Routing
open Neroshop.Rpc

/-! ## What reaches the node -/

inductive MailKind where
  /-- A put of another node. -/
  | stores
  /-- A put of the node's own client. -/
  | caches
  | maps
  deriving DecidableEq, Repr

structure Mail where
  kind : MailKind
  setting : Setting
  key : String
  value : String

namespace Mail

variable (env : Externals) (mail : Mail)

/-- What the node does with it itself. -/
def call : NodeCall Unit :=
  match mail.kind with
  | .stores => do
      let _ ← LocalNode.store env mail.setting mail.key mail.value
  | .caches => do
      let _ ← storeAndCache env mail.setting mail.key mail.value
  | .maps => do
      if ← LocalNode.validate env mail.setting mail.key mail.value then
        LocalNode.map env mail.setting mail.key mail.value

def offer : Offer := ⟨mail.setting.moment, mail.key, mail.value⟩

/-- It has passed every check but the last: it has expired. -/
def Expired : Prop :=
  ∃ json, validateDocument env mail.key mail.value = .ok (some json) ∧
    expiry mail.setting.moment.clock json = .expired

/-- It takes the value under the key away. -/
def Spoils (key value : String) : Prop :=
  mail.key = key ∧
    (mail.Expired env ∨ mail.kind ≠ .maps ∧ Displaces env mail.offer value)

end Mail

def afterMail (env : Externals) (node : LocalNode) (mails : List Mail) :
    LocalNode :=
  mails.foldl (fun node mail => stateAfter (mail.call env) node) node

/-! ## What stays -/

/-- A value under a key stays, and so does a row.  Terms are staged during a
call only. -/
structure Retains (key value : String) (row : Mapping) (node after : LocalNode) :
    Prop where
  mapper : node.keyMapper = [] → after.keyMapper = []
  data : node.tables.data.lookup key = some value →
    after.tables.data.lookup key = some value
  mappings : row ∈ node.tables.mappings → row ∈ after.tables.mappings

instance (key value : String) (row : Mapping) :
    IsPreorder LocalNode (Retains key value row) where
  refl _ := ⟨id, id, id⟩
  trans _ _ _ hfirst hsecond :=
    ⟨hsecond.mapper ∘ hfirst.mapper, hsecond.data ∘ hfirst.data,
      hsecond.mappings ∘ hfirst.mappings⟩

section Steps

variable {env : Externals} {key value : String} {row : Mapping} {mail : Mail}
  {json : Json}

theorem mem_insertMapping {moment : Moment} {rows : List Mapping}
    (staged : StagedTerm) (h : row ∈ rows) :
    row ∈ insertMapping moment rows staged := by
  unfold insertMapping
  split_ifs
  · exact h
  · exact h
  · exact List.mem_append_left _ h
  · exact h

theorem add_retains {moment : Moment} {mapper after : KeyMapper}
    {rows added : List Mapping} {key value : String}
    (hadd : mapper.add env moment rows key value = .ok (after, added)) :
    (mapper = [] → after = []) ∧ (row ∈ rows → row ∈ added) := by
  have hsync (mapper : KeyMapper) (h : row ∈ rows) :
      row ∈ KeyMapper.sync moment mapper rows := by
    refine List.foldlRecOn _ _ h fun rows hrows staged _ => ?_
    exact mem_insertMapping staged hrows
  unfold KeyMapper.add at hadd
  cases hparse : env.parse value with
  | error error =>
      rw [hparse] at hadd
      cases error <;> cases hadd
      exact ⟨id, id⟩
  | ok json =>
      rw [hparse] at hadd
      obtain ⟨member, -, hadd⟩ := bind_eq_ok.mp hadd
      obtain ⟨metadata, -, hadd⟩ := bind_eq_ok.mp hadd
      cases hadd
      exact ⟨fun _ => rfl, hsync _⟩

theorem map_retains (setting : Setting) (other text : String) :
    Relates (Retains key value row) (LocalNode.map env setting other text) := by
  intro node
  simp only [stateAfter, LocalNode.map, EStateM.run]
  cases hadd : node.keyMapper.add env setting.moment node.tables.mappings other
      text with
  | error fault => exact refl_of (Retains key value row) node
  | ok mapped =>
      obtain ⟨hmapper, hrows⟩ := add_retains hadd
      exact ⟨hmapper, id, hrows⟩

theorem cache_retains (setting : Setting) (other text : String) :
    Relates (Retains key value row) (LocalNode.cache setting other text) := by
  refine relates_onTables fun node => ?_
  split <;> exact ⟨id, id, id⟩

/-- The rows of a key that has expired are gone, and no others. -/
theorem mem_discard {moment : Moment} {store : Store} {other : String}
    (hrow : row.key ≠ other) (h : row ∈ store.mappings) :
    row ∈ (store.discard moment other).mappings := by
  rw [Store.discard_mappings, Store.deleteMappings]
  dsimp only
  split
  · exact List.mem_filter.mpr ⟨h, decide_eq_true hrow⟩
  · exact h

theorem validate_retains (hrow : row.key = key)
    (h : ¬ mail.Spoils env key value) :
    Relates (Retains key value row)
      (LocalNode.validate env mail.setting mail.key mail.value) := by
  refine relates_onTables fun node => ?_
  rw [Node.validate]
  cases hdocument : validateDocument env mail.key mail.value with
  | error fault => exact ⟨id, id, id⟩
  | ok document =>
      cases document with
      | none => exact ⟨id, id, id⟩
      | some json =>
          dsimp only
          cases hexpiry : expiry mail.setting.moment.clock json with
          | current => exact ⟨id, id, id⟩
          | malformed => exact ⟨id, id, id⟩
          | expired =>
              have hne : key ≠ mail.key := fun heq =>
                h ⟨heq.symm, .inl ⟨json, hdocument, hexpiry⟩⟩
              exact ⟨id, fun hdata => (Finmap.lookup_erase_ne hne).trans hdata,
                mem_discard (hrow ▸ hne)⟩

/-- A put leaves the rows alone, unless the value has expired. -/
theorem mem_apply (hrow : row.key = key) (h : ¬ mail.Spoils env key value)
    {store : Store} (hmem : row ∈ store.mappings) :
    row ∈ (mail.offer.apply env store).mappings := by
  obtain ⟨result, houtcome⟩ := apply_outcome env store mail.offer
  generalize mail.offer.apply env store = after at houtcome ⊢
  cases houtcome with
  | stored | fault | unaccepted | malformedExpiry | inserted => exact hmem
  | expired json _ hdocument hexpiry =>
      have hne : key ≠ mail.key := fun heq =>
        h ⟨heq.symm, .inl ⟨json, hdocument, hexpiry⟩⟩
      exact mem_discard (hrow ▸ hne) hmem
  | updated =>
      rcases set_store env store mail.offer.key mail.offer.value with
        hstore | ⟨-, hstore⟩ <;>
      · rw [hstore]
        exact hmem

theorem store_retains (hparse : env.parse value = .ok json)
    (hkind : json.string? "metadata" = some "message") (hrow : row.key = key)
    (hputs : mail.kind ≠ .maps) (h : ¬ mail.Spoils env key value) :
    Relates (Retains key value row)
      (LocalNode.store env mail.setting mail.key mail.value) := by
  refine relates_onTables fun node => ⟨id, fun hdata => ?_, mem_apply hrow h⟩
  by_cases hkey : mail.key = key
  · subst hkey
    have hstays : (mail.offer.apply env node.tables).data.lookup mail.key =
        some value ↔ ¬ Displaces env mail.offer value :=
      apply_lookup_iff hdata hparse hkind (.inr rfl)
    exact hstays.mpr fun hdisplaces => h ⟨rfl, .inr ⟨hputs, hdisplaces⟩⟩
  · exact (put_lookup_of_ne (Ne.symm hkey)).trans hdata

theorem Mail.call_retains (hparse : env.parse value = .ok json)
    (hkind : json.string? "metadata" = some "message") (hrow : row.key = key)
    (h : ¬ mail.Spoils env key value) :
    Relates (Retains key value row) (mail.call env) := by
  unfold Mail.call
  split
  case h_1 hcase =>
    exact relates_bind_pure
      (store_retains hparse hkind hrow (by simp [hcase]) h)
  case h_2 hcase =>
    have hstore := store_retains hparse hkind hrow (by simp [hcase]) h
    refine relates_bind_pure ?_
    unfold storeAndCache
    refine relates_bind hstore fun stored => ?_
    split
    · refine relates_bind (cache_retains _ _ _) fun cached => ?_
      split
      · refine relates_bind (relates_ofExcept _) fun publishable => ?_
        exact relates_bind_pure (map_retains _ _ _)
      · exact relates_pure _
    · exact relates_pure _
  case h_3 =>
    refine relates_bind (validate_retains hrow h) fun valid => ?_
    split
    · exact map_retains _ _ _
    · exact relates_pure _

/-- Whatever arrives, and in whatever order. -/
theorem afterMail_retains (hparse : env.parse value = .ok json)
    (hkind : json.string? "metadata" = some "message") (hrow : row.key = key)
    {mails : List Mail} (h : ∀ mail ∈ mails, ¬ mail.Spoils env key value)
    (node : LocalNode) :
    Retains key value row node (afterMail env node mails) := by
  induction mails generalizing node with
  | nil => exact refl_of (Retains key value row) node
  | cons mail mails ih =>
      obtain ⟨hfirst, hrest⟩ := List.forall_mem_cons.mp h
      exact trans_of (Retains key value row)
        (Mail.call_retains hparse hkind hrow hfirst node) (ih hrest _)

end Steps

/-! ## Delivery -/

/-- A message that its recipient reads so. -/
def Letter (env : Externals) (desktop : Desktop) (value : String)
    (row : MessageRow) : Prop :=
  ∃ json, Accepted env row.key value json "message" ∧
    (∀ clock, expiry clock json ≠ .malformed) ∧
    readMessage desktop row.key json = .ok (some (.message row))

/-- The value arrives under the key, at a node that is so. -/
def Arrives (env : Externals) (node : LocalNode) (mails : List Mail)
    (key value : String) (arrival : Mail → LocalNode → Prop) : Prop :=
  ∃ front mail, front ++ [mail] <+: mails ∧ mail.key = key ∧
    mail.value = value ∧ arrival mail (afterMail env node front)

/-- The node gets the value and, before or behind it, the map message for it. -/
structure Delivered (env : Externals) (node : LocalNode) (mails : List Mail)
    (key value recipientId : String) : Prop where
  mapper : node.keyMapper = []
  unspoiled : ∀ mail ∈ mails, ¬ mail.Spoils env key value
  stored : Arrives env node mails key value fun mail before =>
    mail.kind ≠ .maps ∧ before.tables.data.lookup key = none
  mapped : Arrives env node mails key value fun mail before =>
    mail.kind = .maps ∧ mail.setting.moment.executes .insertMapping = true ∧
      ∀ row ∈ before.tables.mappings, row.searchTerm = recipientId →
        row.key = key → row.content = "message"

section Delivery

variable {env : Externals} {node : LocalNode} {mails : List Mail} {mail : Mail}
  {key value recipientId : String} {json : Json}

theorem afterMail_append (mails others : List Mail) :
    afterMail env node (mails ++ others) =
      afterMail env (afterMail env node mails) others :=
  List.foldl_append

/-- What an arrival has brought about stays until the end. -/
theorem Arrives.brings {arrival : Mail → LocalNode → Prop}
    (h : Arrives env node mails key value arrival) (row : Mapping)
    (hrow : row.key = key) (hparse : env.parse value = .ok json)
    (hkind : json.string? "metadata" = some "message")
    (hunspoiled : ∀ mail ∈ mails, ¬ mail.Spoils env key value) :
    ∃ before mail, mail ∈ mails ∧ mail.key = key ∧ mail.value = value ∧
      arrival mail before ∧ Retains key value row node before ∧
      Retains key value row (stateAfter (mail.call env) before)
        (afterMail env node mails) := by
  obtain ⟨front, mail, ⟨back, rfl⟩, hkey, hvalue, harrival⟩ := h
  refine ⟨_, mail, by simp, hkey, hvalue, harrival, ?_, ?_⟩
  · exact afterMail_retains hparse hkind hrow
      (fun mail hmail => hunspoiled mail (by simp [hmail])) _
  · rw [afterMail_append, afterMail_append]
    exact afterMail_retains hparse hkind hrow
      (fun mail hmail => hunspoiled mail (by simp [hmail])) _

theorem expiry_current (haccepted : Accepted env mail.key mail.value json "message")
    (hdated : ∀ clock, expiry clock json ≠ .malformed)
    (hunspoiled : ¬ mail.Spoils env mail.key value) :
    expiry mail.setting.moment.clock json = .current := by
  cases hexpiry : expiry mail.setting.moment.clock json with
  | current => rfl
  | malformed => exact absurd hexpiry (hdated _)
  | expired =>
      have hdocument := validateDocument_eq_some.mpr ⟨_, haccepted⟩
      exact absurd ⟨rfl, .inl ⟨json, hdocument, hexpiry⟩⟩ hunspoiled

/-- A put under a free key. -/
theorem Mail.call_stores
    (haccepted : Accepted env mail.key mail.value json "message")
    (hexpiry : expiry mail.setting.moment.clock json = .current)
    (hputs : mail.kind ≠ .maps)
    (hfree : node.tables.data.lookup mail.key = none) :
    (stateAfter (mail.call env) node).tables.data.lookup mail.key =
      some mail.value := by
  have hdocument := validateDocument_eq_some.mpr ⟨_, haccepted⟩
  have hput : put env mail.setting.moment node.tables mail.key mail.value =
      (.ok true, node.tables.insertData mail.key mail.value) := by
    rw [put_of_accepted (by simp [hfree]) hdocument, hexpiry, hfree]
  have hstore := run_store env mail.setting node mail.key mail.value
  rw [hput] at hstore
  have hdata : (node.tables.insertData mail.key mail.value).data.lookup
      mail.key = some mail.value := insertData_lookup ..
  unfold Mail.call
  split
  case h_1 => rwa [stateAfter_bind_of_ok hstore]
  case h_2 =>
    have hcopies := (storeAndCache_copies env mail.setting node mail.key
      mail.value).1
    rw [stateAfter_bind_of_forall fun _ _ => rfl, hcopies, putCached, hput]
    dsimp only
    unfold cacheRow
    split <;> exact hdata
  case h_3 hcase => exact absurd hcase hputs

/-- A map message under a key whose rows are those of messages. -/
theorem Mail.call_maps
    (haccepted : Accepted env mail.key mail.value json "message")
    (hexpiry : expiry mail.setting.moment.clock json = .current)
    (hrecipient : json.string? "recipient_id" = some recipientId)
    (hmapper : node.keyMapper = []) (hmaps : mail.kind = .maps)
    (hexecutes : mail.setting.moment.executes .insertMapping = true)
    (hrows : ∀ row ∈ node.tables.mappings, row.searchTerm = recipientId →
      row.key = mail.key → row.content = "message") :
    ⟨recipientId, mail.key, "message"⟩ ∈
      (stateAfter (mail.call env) node).tables.mappings := by
  have hdocument := validateDocument_eq_some.mpr ⟨_, haccepted⟩
  have hvalidate : (LocalNode.validate env mail.setting mail.key mail.value).run
      node = .ok true node := by
    simp only [LocalNode.validate, LocalNode.onTables, EStateM.run, Node.validate,
      hdocument, hexpiry]
  have hterms : termsOf mail.key json "message" =
      [⟨.messages, recipientId, mail.key⟩] := by
    simp only [termsOf, searchTerms, memberTerm, hrecipient, Option.toList_some,
      List.map_cons, List.map_nil]
  have hlength : (chars mail.key).length = 64 := haccepted.keyLength
  unfold Mail.call
  rw [hmaps]
  dsimp only
  rw [stateAfter_bind_of_ok hvalidate, if_pos rfl]
  simp only [stateAfter, LocalNode.map, EStateM.run, add_of_accepted haccepted,
    hmapper, List.nil_append, hterms]
  change _ ∈ insertMapping _ _ _
  rw [insertMapping, if_neg (not_not_intro hlength), if_pos hexecutes]
  split
  case isTrue hfound =>
    obtain ⟨-, hany⟩ := hfound
    obtain ⟨row, hrow, htest⟩ := List.any_eq_true.mp hany
    obtain ⟨hterm, hkey⟩ : row.searchTerm = recipientId ∧ row.key = mail.key :=
      of_decide_eq_true htest
    have hcontent := hrows row hrow hterm hkey
    have hsame : row = ⟨recipientId, mail.key, "message"⟩ := by
      rw [← hterm, ← hkey, ← hcontent]
    exact hsame ▸ hrow
  case isFalse => exact List.mem_append_right _ List.mem_cons_self

end Delivery

/-! ## Reading -/

/-- The client of the node, which finds what the node stores. -/
structure Desktop.Reads (desktop : Desktop) (node : LocalNode) : Prop where
  prepares : desktop.prepares = true
  mappings : desktop.mappings = node.tables.mappings
  lookup : ∀ key value, node.tables.data.lookup key = some value →
    desktop.lookup key = .found value

/-- Where a value is found under the key, no error is thrown at it. -/
def Legible (env : Externals) (desktop : Desktop) (key : String) : Prop :=
  key ≠ "NULL" → ∀ value, desktop.lookup key = .found value →
    Yields (readDocument env "message" (readMessage desktop key) value)

/-- The recipient reads the messages, and has this one of them once. -/
def ReadsOnce (env : Externals) (desktop : Desktop) (row : MessageRow) : Prop :=
  ∃ rows calls,
    (getMessages env desktop row.recipientId).run [] = .ok rows calls ∧
      rows.count (.message row) = 1

section Reading

variable {env : Externals} {desktop : Desktop} {key value : String} {json : Json}
  {row : MessageRow}

theorem returns_getMessages {userId : String} :
    Returns (getMessages env desktop userId) [] ↔
      ∀ key ∈ desktop.keys "message" (some userId), Legible env desktop key :=
  returns_bind_pure.trans (returns_readKeys _)

theorem readMessage_eq_some (hobject : json.isObject = true) :
    readMessage desktop key json = .ok (some (.message row)) ↔
      row.key = key ∧ json.string? "recipient_id" = some row.recipientId ∧
        json.string? "timestamp" = some row.timestamp ∧
        ∃ content sender signature, json.string? "content" = some content ∧
          json.string? "sender_id" = some sender ∧
          json.string? "signature" = some signature ∧
          0 ≤ (desktop.base64Read content).1 ∧
          0 ≤ (desktop.base64Read sender).1 ∧
          desktop.decrypted content = row.content ∧
          desktop.decrypted sender = row.senderId ∧
          desktop.verifyMessage row.content row.senderId signature =
            .ok row.verified := by
  simp only [readMessage, bind_eq_ok, fetchString_eq_ok hobject,
    decryptMessage_eq_ok]
  constructor
  · rintro ⟨content, hcontent, sender, hsender, _, ⟨hfirst, hsecond, rfl⟩,
      recipient, hrecipient, timestamp, htimestamp, signature, hsignature,
      verified, hverified, hrow⟩
    cases hrow
    exact ⟨rfl, hrecipient, htimestamp, content, sender, signature, hcontent,
      hsender, hsignature, hfirst, hsecond, rfl, rfl, hverified⟩
  · rintro ⟨rfl, hrecipient, htimestamp, content, sender, signature, hcontent,
      hsender, hsignature, hfirst, hsecond, htext, hid, hverified⟩
    refine ⟨content, hcontent, sender, hsender, _, ⟨hfirst, hsecond, rfl⟩, _,
      hrecipient, _, htimestamp, signature, hsignature, row.verified, ?_, ?_⟩
    · rw [htext, hid]
      exact hverified
    · rw [htext, hid]
      rfl

/-- Where the reader returns, a row that it can read is there once. -/
theorem count_getMessages {userId : String} {rows : List Row}
    {calls : List ClientCall}
    (hrun : (getMessages env desktop userId).run [] = .ok rows calls)
    (hkey : row.key ∈ desktop.keys "message" (some userId))
    (hnull : row.key ≠ "NULL") (hfound : desktop.lookup row.key = .found value)
    (hparse : env.parse value = .ok json)
    (hkind : json.string? "metadata" = some "message")
    (hread : readMessage desktop row.key json = .ok (some (.message row))) :
    rows.count (.message row) = 1 := by
  obtain ⟨messages, middle, hmessages, hsort⟩ := run_bind_eq_ok.mp hrun
  cases hsort
  have hall := (returns_readKeys _).mp ⟨_, _, hmessages⟩
  rw [run_readKeys _ hall] at hmessages
  cases hmessages
  rw [(List.mergeSort_perm ..).count_eq]
  refine le_antisymm ?_ (List.one_le_count_iff.mpr ?_)
  · have hnodup : (desktop.keys "message" (some userId)).Nodup := by
      rw [Desktop.keys]
      split
      · exact nodup_selectKeys ..
      · exact List.nodup_nil
    refine countP_filterMap_le_one hnodup ?_
    have hkeyOf (other : String) (shown : Row)
        (hrow : rowAt desktop.lookup .blank (fun key =>
          readDocument env "message" (readMessage desktop key)) other =
            some shown) (hshown : (shown == .message row) = true) :
        other = row.key := by
      cases beq_iff_eq.mp hshown
      rcases rowAt_eq_some hrow with hblank | ⟨text, -, hdocument⟩
      · cases hblank
      obtain ⟨parsed, -, hkind, hread⟩ := readDocument_eq_some hdocument
      exact ((readMessage_eq_some
        (Json.isObject_of_string? hkind)).mp hread).1.symm
    intro first _ second _ firstRow secondRow hfirst hsame hsecond hequal
    rw [hkeyOf first firstRow hfirst hsame, hkeyOf second secondRow hsecond hequal]
  · refine List.mem_filterMap.mpr ⟨row.key, hkey, ?_⟩
    rw [rowAt, if_neg hnull, hfound]
    dsimp only
    rw [readDocument_of_parse hparse hkind, if_neg (not_not_intro rfl), hread]
    rfl

/-- In the end the node stores the value and has mapped it. -/
theorem Delivered.held {node : LocalNode} {mails : List Mail}
    {recipientId : String} (h : Delivered env node mails key value recipientId)
    (haccepted : Accepted env key value json "message")
    (hdated : ∀ clock, expiry clock json ≠ .malformed)
    (hrecipient : json.string? "recipient_id" = some recipientId) :
    (afterMail env node mails).tables.data.lookup key = some value ∧
      ⟨recipientId, key, "message"⟩ ∈
        (afterMail env node mails).tables.mappings := by
  constructor
  · obtain ⟨before, mail, hmail, rfl, rfl, ⟨hputs, hfree⟩, -, hafter⟩ :=
      h.stored.brings ⟨recipientId, key, "message"⟩ rfl
        haccepted.parsed haccepted.kind h.unspoiled
    have hexpiry := expiry_current haccepted hdated (h.unspoiled mail hmail)
    exact hafter.data (Mail.call_stores haccepted hexpiry hputs hfree)
  · obtain ⟨before, mail, hmail, rfl, rfl, ⟨hmaps, hexecutes, hrows⟩, hbefore,
      hafter⟩ := h.mapped.brings ⟨recipientId, key, "message"⟩ rfl
        haccepted.parsed haccepted.kind h.unspoiled
    have hexpiry := expiry_current haccepted hdated (h.unspoiled mail hmail)
    exact hafter.mappings (Mail.call_maps haccepted hexpiry hrecipient
      (hbefore.mapper h.mapper) hmaps hexecutes hrows)

/-- A letter that is delivered is read once, as it is, where there is no other
that getMessages cannot read. -/
theorem Letter.read (hletter : Letter env desktop value row) {node : LocalNode}
    {mails : List Mail}
    (h : Delivered env node mails row.key value row.recipientId)
    (hreads : desktop.Reads (afterMail env node mails))
    (hothers : ∀ other ∈ desktop.keys "message" (some row.recipientId),
      other ≠ row.key → Legible env desktop other) :
    ReadsOnce env desktop row := by
  obtain ⟨json, haccepted, hdated, hread⟩ := hletter
  have hfields := (readMessage_eq_some haccepted.isObject).mp hread
  obtain ⟨hdata, hmapped⟩ := h.held haccepted hdated hfields.2.1
  have hfound := hreads.lookup _ _ hdata
  have hkey : row.key ∈ desktop.keys "message" (some row.recipientId) := by
    rw [Desktop.keys, if_pos hreads.prepares, hreads.mappings, selectKeys,
      List.mem_eraseDups]
    exact List.mem_map.mpr ⟨_, List.mem_filter.mpr ⟨hmapped, by simp⟩, rfl⟩
  have hnull : row.key ≠ "NULL" := by
    intro hnull
    have hlength := haccepted.keyLength
    rw [hnull] at hlength
    exact absurd hlength (by decide)
  have hlegible : Legible env desktop row.key := by
    intro _ found hvalue
    rw [hfound] at hvalue
    cases hvalue
    refine ⟨some (.message row), ?_⟩
    rw [readDocument_of_parse haccepted.parsed haccepted.kind,
      if_neg (not_not_intro rfl)]
    exact hread
  obtain ⟨rows, calls, hrun⟩ := returns_getMessages.mpr fun other hother => by
    by_cases hsame : other = row.key
    · exact hsame ▸ hlegible
    · exact hothers other hother hsame
  exact ⟨rows, calls, hrun, count_getMessages hrun hkey hnull hfound
    haccepted.parsed haccepted.kind hread⟩

end Reading

/-! ## From the sender to the reader -/

/-- The reader decrypts what the sender encrypts under the key. -/
structure Deciphers (desktop : Desktop) (sender : Mailer) (publicKey : String) :
    Prop where
  decodes : ∀ text, sender.rsaPublicEncrypt publicKey text ≠ [] →
    desktop.base64Read (sender.encoded publicKey text) =
      (((sender.rsaPublicEncrypt publicKey text).length : Int),
        sender.rsaPublicEncrypt publicKey text)
  decrypts : ∀ text, sender.rsaPublicEncrypt publicKey text ≠ [] →
    desktop.rsaPrivateDecrypt (sender.rsaPublicEncrypt publicKey text) = text

section Correspondence

variable {env : Externals} {desktop : Desktop} {key value publicKey recipientId : String}
  {sender : Mailer} {content senderId : List UInt8} {signature timestamp : String}
  {expirationDate : Option String} {verified : Bool}

theorem Deciphers.decrypted (h : Deciphers desktop sender publicKey) {text : List UInt8}
    (hencrypted : sender.rsaPublicEncrypt publicKey text ≠ []) :
    0 ≤ (desktop.base64Read (sender.encoded publicKey text)).1 ∧
      desktop.decrypted (sender.encoded publicKey text) = text := by
  rw [Desktop.decrypted, h.decodes text hencrypted]
  dsimp only
  rw [Int.toNat_natCast, List.take_length]
  exact ⟨Int.natCast_nonneg _, h.decrypts text hencrypted⟩

theorem letter_of_encoded (hdeciphers : Deciphers desktop sender publicKey)
    (hcontent : sender.rsaPublicEncrypt publicKey content ≠ [])
    (hsender : sender.rsaPublicEncrypt publicKey senderId ≠ [])
    (hverified : desktop.verifyMessage content senderId signature = .ok verified)
    (hkey : key.utf8ByteSize = 64) (hvalue : value ≠ "")
    (hparse : ParsesBack env value (Message.document
      ⟨sender.encoded publicKey senderId, sender.encoded publicKey content,
        recipientId, signature⟩ timestamp expirationDate)) :
    Letter env desktop value
      ⟨key, content, senderId, recipientId, timestamp, verified⟩ := by
  obtain ⟨json, haccepted, hfind⟩ := Message.accepted hkey hvalue hparse
  have hmember (name : String) := (hfind name).trans (Message.find?_document name)
  refine ⟨json, haccepted, fun clock => ?_,
    (readMessage_eq_some haccepted.isObject).mpr ⟨rfl, ?_, ?_, _, _, signature,
      ?_, ?_, ?_, (hdeciphers.decrypted hcontent).1, (hdeciphers.decrypted hsender).1,
      (hdeciphers.decrypted hcontent).2, (hdeciphers.decrypted hsender).2, hverified⟩⟩
  · have hdate : json.find? "expiration_date" = expirationDate.map .string :=
      (hmember _).trans (by cases expirationDate <;> rfl)
    rw [expiry, hdate]
    cases expirationDate with
    | none => simp
    | some date =>
        dsimp only [Option.map_some]
        split <;> simp
  all_goals
    rw [Json.string?, hmember]
    rfl

/-- What a reader writes who passes a message on, with the signature as it is. -/
def passedOn (sender : Mailer) (publicKey recipientId signature : String)
    (row : MessageRow) : Message where
  senderId := sender.encoded publicKey row.senderId
  content := sender.encoded publicKey row.content
  recipientId := recipientId
  signature := signature

end Correspondence

/-! ## A greeting -/

def greeting : List UInt8 := [72, 105]

def greetingText (recipientId : String) : String :=
  "\x7b\"content\":\"AQID\",\"metadata\":\"message\",\"recipient_id\":\"" ++
    recipientId ++ "\",\"sender_id\":\"BAUG\",\"signature\":\"" ++
    firstSignature ++ "\",\"timestamp\":\"2024-01-01T00:00:00Z\"\x7d"

def greetingDocument (recipientId : String) : Json :=
  .object [("sender_id", .string "BAUG"), ("content", .string "AQID"),
    ("recipient_id", .string recipientId), ("signature", .string firstSignature),
    ("timestamp", .string "2024-01-01T00:00:00Z"),
    ("metadata", .string "message")]

/-- To the seller, and passed on. -/
def greetingKey (recipientId : String) : String :=
  if recipientId = sellerId
  then "faed5e1cffb5cbe19a949158e34a438b52495fd0583e8882a2fc60f23ea3371a"
  else "914f91d252c2d0fc7a194184ad2d0dea6df4cb39c4b3e324f4f0e5e9df2ea77e"

def greeter : Mailer where
  id := raterId
  rsaPublicEncrypt _ text :=
    if text = greeting then [1, 2, 3]
    else if text = chars raterId then [4, 5, 6] else []
  base64Encode bytes :=
    if bytes = [1, 2, 3] then "AQID" else if bytes = [4, 5, 6] then "BAUG" else ""
  signMessage _ := .ok firstSignature
  timestamp := "2024-01-01T00:00:00Z"
  expirationDate := .ok none
  dump _ := greetingText sellerId
  sha3 _ := greetingKey sellerId

/-- The client of a node with these tables, with the key that decrypts. -/
def greeted (tables : Store) : Desktop :=
  { Desktop.ofTables tables with
    base64Read := fun text =>
      if text = "AQID" then (3, [1, 2, 3])
      else if text = "BAUG" then (3, [4, 5, 6]) else (0, [])
    rsaPrivateDecrypt := fun bytes =>
      if bytes = [1, 2, 3] then greeting
      else if bytes = [4, 5, 6] then chars raterId else []
    verifyMessage := fun message address signature =>
      .ok (decide (message = greeting ∧ address = chars raterId ∧
        signature = firstSignature)) }

def greetingExternals (recipientId : String) : Externals :=
  .ofDocuments [(greetingText recipientId, greetingDocument recipientId)]

/-- The map message comes first. -/
def greetingMails (recipientId : String) : List Mail :=
  [⟨.maps, lonelySetting, greetingKey recipientId, greetingText recipientId⟩,
    ⟨.stores, lonelySetting, greetingKey recipientId, greetingText recipientId⟩]

def greetedNode (recipientId : String) : LocalNode :=
  afterMail (greetingExternals recipientId) lonelyNode (greetingMails recipientId)

def greetingRow (recipientId : String) : MessageRow :=
  ⟨greetingKey recipientId, greeting, chars raterId, recipientId,
    "2024-01-01T00:00:00Z", true⟩

theorem greeter_deciphers (tables : Store) :
    Deciphers (greeted tables) greeter "" := by
  have hid : chars raterId ≠ greeting := by decide +kernel
  refine ⟨fun text hencrypted => ?_, fun text hencrypted => ?_⟩ <;>
  · simp only [greeter] at hencrypted
    split_ifs at hencrypted with hgreeting hrater
    · subst hgreeting
      rfl
    · subst hrater
      simp [Mailer.encoded, greeter, greeted, hid]
    · exact absurd rfl hencrypted

theorem greeted_reads (node : LocalNode) :
    (greeted node.tables).Reads node where
  prepares := rfl
  mappings := rfl
  lookup key value h := by
    simp only [greeted, Desktop.ofTables, h]

section Greeting

variable {recipientId : String}

theorem utf8ByteSize_greetingKey : (greetingKey recipientId).utf8ByteSize = 64 := by
  rw [greetingKey]
  split <;> decide +kernel

theorem greetingText_ne_empty (h : recipientId = sellerId ∨ recipientId = otherSellerId) :
    greetingText recipientId ≠ "" := by
  rcases h with rfl | rfl <;> decide +kernel

theorem parse_greetingText :
    (greetingExternals recipientId).parse (greetingText recipientId) =
      .ok (greetingDocument recipientId) := by
  simp [greetingExternals, Externals.ofDocuments, parseListed]

theorem greeting_parsesBack :
    ParsesBack (greetingExternals recipientId) (greetingText recipientId)
      ((greeter.message recipientId "" firstSignature greeting).document
        greeter.timestamp none) := by
  have hid : chars raterId ≠ greeting := by decide +kernel
  have hdocument : (greeter.message recipientId "" firstSignature
      greeting).document greeter.timestamp none = greetingDocument recipientId := by
    simp [Mailer.message, Mailer.encoded, greeter, hid, Message.document,
      Message.fields, Json.ofFields, Json.present, greetingDocument]
  exact ⟨_, parse_greetingText, rfl, fun name => by rw [hdocument]⟩

theorem greeting_letter (h : recipientId = sellerId ∨ recipientId = otherSellerId)
    (tables : Store) :
    Letter (greetingExternals recipientId) (greeted tables)
      (greetingText recipientId) (greetingRow recipientId) := by
  have hverified : (greeted tables).verifyMessage greeting (chars raterId)
      firstSignature = .ok true := by
    simp [greeted]
  exact letter_of_encoded (greeter_deciphers tables) (by decide +kernel)
    (by decide +kernel) hverified utf8ByteSize_greetingKey
    (greetingText_ne_empty h) greeting_parsesBack

theorem greeting_delivered (h : recipientId = sellerId ∨ recipientId = otherSellerId) :
    Delivered (greetingExternals recipientId) lonelyNode
      (greetingMails recipientId) (greetingKey recipientId)
      (greetingText recipientId) recipientId := by
  refine ⟨rfl, ?_, ?_, ?_⟩
  · rintro mail hmail ⟨-, hspoils⟩
    have hvalue : mail.value = greetingText recipientId := by
      simp only [greetingMails, List.mem_cons, List.not_mem_nil, or_false] at hmail
      rcases hmail with rfl | rfl <;> rfl
    rcases hspoils with ⟨json, hjson, hexpired⟩ | ⟨-, hne, -⟩
    · obtain ⟨_, haccepted⟩ := validateDocument_eq_some.mp hjson
      have hparse := haccepted.parsed
      rw [hvalue, parse_greetingText] at hparse
      cases hparse
      cases hexpired
    · exact hne hvalue
  · refine ⟨[⟨.maps, lonelySetting, greetingKey recipientId,
      greetingText recipientId⟩], _, ⟨[], rfl⟩, rfl, rfl, nofun, ?_⟩
    rcases h with rfl | rfl <;> decide +kernel
  · refine ⟨[], _, ⟨[_], rfl⟩, rfl, rfl, rfl, rfl, ?_⟩
    rintro row ⟨⟩

/-- The greeting is all that is in the mailbox. -/
theorem greeting_others (h : recipientId = sellerId ∨ recipientId = otherSellerId)
    (env : Externals) :
    ∀ other ∈ (greeted (greetedNode recipientId).tables).keys "message"
        (some recipientId), other ≠ greetingKey recipientId →
      Legible env (greeted (greetedNode recipientId).tables) other := by
  have hkeys : (greeted (greetedNode recipientId).tables).keys "message"
      (some recipientId) = [greetingKey recipientId] := by
    rcases h with rfl | rfl <;> decide +kernel
  rw [hkeys]
  intro other hother hne
  exact absurd (List.mem_singleton.mp hother) hne

end Greeting

/-- The seller who has read it passes it on to another one. -/
def greetedSeller : Mailer := { greeter with id := sellerId }

end Neroshop.Gui
