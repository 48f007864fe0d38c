import Neroshop.Foundation.Transition
import Neroshop.Node.LocalNode
import Neroshop.Routing.History

/-!
# The health of remote nodes

`heartbeat` takes a snapshot of one bucket after the other and pings the nodes
in it.  A ping that succeeds resets the counter of the node, one that fails
adds to it, and so do the calls of other threads that get no reply.  Behind its
own ping a node is removed if its counter has reached the limit by then.
-/

namespace Neroshop.Node

open Neroshop.Foundation Neroshop.Routing

/-! ## Contacts -/

/-- The requests of the other calls to one node. -/
inductive Contact where
  | put
  | putReplacement
  | remove
  | getProviders
  deriving DecidableEq

inductive Outcome where
  /-- `send_query` throws. -/
  | unsent
  /-- No reply before the timeout. -/
  | silent
  | answered
  deriving DecidableEq

/-- What is added to the counter: `send_put` counts its replacement nodes only,
and the other two the timeouts only. -/
def counts : Contact → Outcome → Bool
  | .putReplacement, .unsent => true
  | .putReplacement, .silent => true
  | .remove, .silent => true
  | .getProviders, .silent => true
  | _, _ => false

/-- `fetch_add(1)` on an `atomic<int>`. -/
def fetchAdd (counter : Int) : Int := (counter + 1).bmod (2 ^ 32)

def isDead (checkCounter : Int) : Bool := (maxHealthChecks : Int) ≤ checkCounter

/-! ## The state -/

/-- How far `heartbeat` has got. -/
inductive Phase where
  | waiting
  | scanning (bucket : Fin 256)
  /-- Nodes of the snapshot that are yet to be pinged. -/
  | checking (bucket : Fin 256) (snapshot : List RemoteNode)
  /-- The node has been pinged; its counter was `before` until then. -/
  | judging (bucket : Fin 256) (node : RemoteNode) (pinged : Bool)
      (before : Int) (snapshot : List RemoteNode)

structure Health where
  table : RoutingTable
  /-- The counter of the node with that id. -/
  checkCounter : String → Int
  /-- The failed contacts that were counted since the last ping that succeeded,
  or since the node was made. -/
  failures : String → Nat
  phase : Phase

inductive HealthEvent where
  | wake
  | takeSnapshot
  | check (pinged : Bool)
  | judge (uninitialized : XorId)
  | leaveBucket
  | addNode (uninitialized : XorId) (address : String) (port : Nat)
  | contact (kind : Contact) (outcome : Outcome) (node : RemoteNode)

namespace Health

def start (table : RoutingTable) : Health :=
  ⟨table, fun _ => 0, fun _ => 0, .waiting⟩

def reset (health : Health) (id : String) : Health :=
  { health with
    checkCounter := Function.update health.checkCounter id 0
    failures := Function.update health.failures id 0 }

def fail (health : Health) (id : String) : Health :=
  { health with
    checkCounter := Function.update health.checkCounter id
      (fetchAdd (health.checkCounter id))
    failures := Function.update health.failures id (health.failures id + 1) }

/-! ## The steps -/

section Steps

variable (sha3256 : String → NodeIdHex) (bootstrapNodes : List (String × Nat))
  (health : Health)

def isHardcodedAt (address : String) (port : Nat) : Bool :=
  (address, port) ∈ bootstrapNodes

def isHardcoded (node : RemoteNode) : Bool :=
  isHardcodedAt bootstrapNodes node.address node.port

/-- One node of the snapshot: it is skipped if it is gone or hardcoded. -/
def checkNode (bucket : Fin 256) (node : RemoteNode)
    (snapshot : List RemoteNode) (pinged : Bool) : Health :=
  if node ∉ health.table.getNodes ∨ isHardcoded bootstrapNodes node then
    { health with phase := .checking bucket snapshot }
  else
    { if pinged then health.reset node.id else health.fail node.id with
      phase := .judging bucket node pinged (health.checkCounter node.id)
        snapshot }

def judgeNode (uninitialized : XorId) (bucket : Fin 256) (node : RemoteNode)
    (snapshot : List RemoteNode) : Option Health :=
  if isDead (health.checkCounter node.id) then
    match health.table.removeNode uninitialized node.id with
    | .ok (_, table) =>
        some { health with
          table := table
          phase := .checking bucket snapshot }
    | .error _ => none
  else some { health with phase := .checking bucket snapshot }

def nextBucket (bucket : Fin 256) : Phase :=
  if h : bucket.val + 1 < 256 then .scanning ⟨bucket + 1, h⟩ else .waiting

/-- A node that is made for the table starts with a counter of zero. -/
def addRemoteNode (uninitialized : XorId) (address : String) (port : Nat) :
    Option Health :=
  let node := RemoteNode.ofAddress sha3256 address port
  match health.table.addNode uninitialized node with
  | .ok (true, table) => some { health.reset node.id with table := table }
  | .ok (false, _) => some health
  | .error _ => none

/-- A contact with a node of the table ends.  `send_get_providers` has begun it
when the counter was zero, which it need not be any more. -/
def endContact (kind : Contact) (outcome : Outcome) (node : RemoteNode) :
    Option Health :=
  if node ∉ health.table.getNodes then none
  else if counts kind outcome then some (health.fail node.id)
  else some health

def step : HealthEvent → Option Health
  | .wake =>
      match health.phase with
      | .waiting => some { health with phase := .scanning 0 }
      | _ => none
  | .takeSnapshot =>
      match health.phase with
      | .scanning bucket => some { health with
          phase := .checking bucket (health.table.buckets bucket) }
      | _ => none
  | .check pinged =>
      match health.phase with
      | .checking bucket (node :: snapshot) =>
          some (health.checkNode bootstrapNodes bucket node snapshot pinged)
      | _ => none
  | .judge uninitialized =>
      match health.phase with
      | .judging bucket node _ _ snapshot =>
          health.judgeNode uninitialized bucket node snapshot
      | _ => none
  | .leaveBucket =>
      match health.phase with
      | .checking bucket [] => some { health with phase := nextBucket bucket }
      | _ => none
  | .addNode uninitialized address port =>
      health.addRemoteNode sha3256 uninitialized address port
  | .contact kind outcome node => health.endContact kind outcome node

end Steps

/-! ## What is asked of a removal -/

section Removal

variable (sha3256 : String → NodeIdHex) (bootstrapNodes : List (String × Nat))

/-- What a step may remove, and what it has to. -/
structure Lawful (health : Health) : Prop where
  removed : ∀ event next, step sha3256 bootstrapNodes health event = some next →
    ∀ node ∈ health.table.getNodes, node ∉ next.table.getNodes →
      (∃ uninitialized bucket pinged before snapshot,
        event = .judge uninitialized ∧
          health.phase = .judging bucket node pinged before snapshot) ∧
        maxHealthChecks ≤ health.failures node.id
  dead : ∀ bucket node before snapshot uninitialized,
    health.phase = .judging bucket node false before snapshot →
      isDead before → health.failures node.id < 2 ^ 31 →
      ∃ next, step sha3256 bootstrapNodes health (.judge uninitialized) =
          some next ∧ node ∉ next.table.getNodes
  hardcoded : ∀ event next,
    step sha3256 bootstrapNodes health event = some next →
    ∀ node ∈ health.table.getNodes, isHardcoded bootstrapNodes node →
      node ∈ next.table.getNodes

/-- The counter is that of the failures, and the node that has been pinged is
in the table, with one failure more than before if the ping failed. -/
structure Tracked (health : Health) : Prop where
  sound : Sound sha3256 health.table
  counter : ∀ id,
    health.checkCounter id = (health.failures id : Int).bmod (2 ^ 32)
  judged : ∀ bucket node pinged before snapshot,
    health.phase = .judging bucket node pinged before snapshot →
      node ∈ health.table.getNodes ∧
        isHardcoded bootstrapNodes node = false ∧
        (pinged = false → ∃ earlier : Nat,
          before = (earlier : Int).bmod (2 ^ 32) ∧
            earlier < health.failures node.id)

end Removal

/-! ## The counter -/

theorem bmod_failures {failures : Nat} (h : failures < 2 ^ 31) :
    (failures : Int).bmod (2 ^ 32) = failures :=
  Int.bmod_eq_of_le (by omega) (by omega)

theorem fetchAdd_failures (failures : Nat) :
    fetchAdd ((failures : Int).bmod (2 ^ 32)) =
      ((failures + 1 : Nat) : Int).bmod (2 ^ 32) := by
  rw [fetchAdd, Int.bmod_add_bmod, Int.natCast_add, Int.natCast_one]

theorem isDead_iff {checkCounter : Int} :
    isDead checkCounter = true ↔ (3 : Int) ≤ checkCounter := by
  exact decide_eq_true_iff

theorem maxHealthChecks_le_of_isDead {failures : Nat}
    (h : isDead ((failures : Int).bmod (2 ^ 32)) = true) :
    maxHealthChecks ≤ failures := by
  rw [isDead_iff] at h
  change 3 ≤ failures
  by_contra hfew
  rw [bmod_failures (by omega)] at h
  omega

/-- A counter that had reached the limit is beyond it after one more failure. -/
theorem isDead_of_before {earlier failures : Nat} (hmore : earlier < failures)
    (hbound : failures < 2 ^ 31)
    (h : isDead ((earlier : Int).bmod (2 ^ 32)) = true) :
    isDead ((failures : Int).bmod (2 ^ 32)) = true := by
  rw [isDead_iff, bmod_failures (by omega)] at h
  rw [isDead_iff, bmod_failures hbound]
  omega

/-! ## The invariant -/

section Runs

variable {sha3256 : String → NodeIdHex} {bootstrapNodes : List (String × Nat)}
  {health : Health}

theorem tracked_start {table : RoutingTable} (h : Sound sha3256 table) :
    Tracked sha3256 bootstrapNodes (start table) where
  sound := h
  counter _ := by simp [start]
  judged _ _ _ _ _ hphase := by cases hphase

namespace Tracked

variable (h : Tracked sha3256 bootstrapNodes health)
include h

theorem withPhase {phase : Phase}
    (hphase : ∀ bucket node pinged before snapshot,
      phase ≠ .judging bucket node pinged before snapshot) :
    Tracked sha3256 bootstrapNodes { health with phase := phase } where
  sound := h.sound
  counter := h.counter
  judged bucket node pinged before snapshot heq :=
    absurd heq (hphase bucket node pinged before snapshot)

theorem counter_reset (id other : String) :
    (health.reset id).checkCounter other =
      ((health.reset id).failures other : Int).bmod (2 ^ 32) := by
  by_cases hid : other = id
  · simp [reset, hid]
  · simpa [reset, hid] using h.counter other

theorem counter_fail (id other : String) :
    (health.fail id).checkCounter other =
      ((health.fail id).failures other : Int).bmod (2 ^ 32) := by
  by_cases hid : other = id
  · subst hid
    simp only [fail, Function.update_self, h.counter, fetchAdd_failures]
  · simpa [fail, hid] using h.counter other

end Tracked

theorem failures_le_fail (id other : String) :
    health.failures other ≤ (health.fail id).failures other := by
  by_cases hid : other = id
  · simp [fail, hid]
  · simp [fail, hid]

/-- A node that is there is known by its id. -/
theorem mem_of_perm_cons {table next : RoutingTable} {removed node : RemoteNode}
    (hperm : table.getNodes.Perm (removed :: next.getNodes))
    (hnode : node ∈ table.getNodes) (hne : node ≠ removed) :
    node ∈ next.getNodes :=
  (List.mem_cons.mp (hperm.mem_iff.mp hnode)).resolve_left hne

theorem table_checkNode (bucket : Fin 256) (node : RemoteNode)
    (snapshot : List RemoteNode) (pinged : Bool) :
    (health.checkNode bootstrapNodes bucket node snapshot pinged).table =
      health.table := by
  rw [checkNode]
  split
  · rfl
  · cases pinged <;> rfl

namespace Tracked

variable (h : Tracked sha3256 bootstrapNodes health)
include h

theorem checkNode (bucket : Fin 256) (node : RemoteNode)
    (snapshot : List RemoteNode) (pinged : Bool) :
    Tracked sha3256 bootstrapNodes
      (health.checkNode bootstrapNodes bucket node snapshot pinged) := by
  rw [Health.checkNode]
  split
  · exact h.withPhase nofun
  next hkept =>
  rw [not_or, not_not, Bool.not_eq_true] at hkept
  cases pinged with
  | true =>
      refine ⟨h.sound, h.counter_reset node.id, ?_⟩
      rintro _ _ _ _ _ ⟨⟩
      exact ⟨hkept.1, hkept.2, nofun⟩
  | false =>
      refine ⟨h.sound, h.counter_fail node.id, ?_⟩
      rintro _ _ _ _ _ ⟨⟩
      refine ⟨hkept.1, hkept.2, fun _ =>
        ⟨health.failures node.id, h.counter node.id, ?_⟩⟩
      simp [fail]

/-- What the removal of a node of the table does. -/
theorem removeNode {node : RemoteNode} (hnode : node ∈ health.table.getNodes)
    (uninitialized : XorId) :
    ∃ table, health.table.removeNode uninitialized node.id =
        .ok (true, table) ∧
      health.table.getNodes.Perm (node :: table.getNodes) ∧
      Sound sha3256 table := by
  obtain ⟨i, hbucket⟩ := RoutingTable.mem_getNodes.mp hnode
  have hid := h.sound.derived i node hbucket
  obtain ⟨result, table, hremove, hremoves, hsound, -⟩ :=
    h.sound.removeNode uninitialized (h.sound.notSelf hnode)
  rw [← hid] at hremove hremoves
  cases result with
  | false => exact absurd rfl ((hremoves.missing rfl).2 node hnode)
  | true =>
      obtain ⟨removed, hremoved, hperm⟩ := hremoves.removed.mp rfl
      have hmem : removed ∈ health.table.getNodes :=
        hperm.mem_iff.mpr List.mem_cons_self
      obtain rfl := h.sound.unique hmem hnode hremoved
      exact ⟨table, hremove, hperm, hsound⟩

theorem judgeNode {node : RemoteNode} (hnode : node ∈ health.table.getNodes)
    (uninitialized : XorId) (bucket : Fin 256) (snapshot : List RemoteNode) :
    ∃ next, health.judgeNode uninitialized bucket node snapshot = some next ∧
      Tracked sha3256 bootstrapNodes next ∧
      (isDead (health.checkCounter node.id) = true →
        health.table.getNodes.Perm (node :: next.table.getNodes)) ∧
      (isDead (health.checkCounter node.id) = false →
        next.table = health.table) := by
  rw [Health.judgeNode]
  cases hdead : isDead (health.checkCounter node.id) with
  | false =>
      exact ⟨_, rfl, h.withPhase nofun, nofun, fun _ => rfl⟩
  | true =>
      obtain ⟨table, hremove, hperm, hsound⟩ := h.removeNode hnode uninitialized
      rw [if_pos rfl, hremove]
      exact ⟨_, rfl, ⟨hsound, h.counter, nofun⟩, fun _ => hperm, nofun⟩

theorem addRemoteNode {next : Health} {uninitialized : XorId} {address : String}
    {port : Nat} (hnext : health.addRemoteNode sha3256 uninitialized address
      port = some next) :
    Tracked sha3256 bootstrapNodes next ∧
      ∀ node ∈ health.table.getNodes, node ∈ next.table.getNodes := by
  obtain ⟨result, table, hadd, hadds, hsound, -⟩ :=
    h.sound.addNode uninitialized address port
  rw [Health.addRemoteNode] at hnext
  simp only [hadd] at hnext
  cases result with
  | false =>
      obtain rfl := Option.some.inj hnext
      exact ⟨h, fun _ hnode => hnode⟩
  | true =>
      obtain rfl := Option.some.inj hnext
      have hperm := hadds.added rfl
      have hkept : ∀ node ∈ health.table.getNodes, node ∈ table.getNodes :=
        fun node hnode => hperm.mem_iff.mpr (List.mem_cons_of_mem _ hnode)
      refine ⟨⟨hsound, h.counter_reset _, ?_⟩, hkept⟩
      intro bucket node pinged before snapshot hphase
      obtain ⟨hnode, hhardcoded, hfailed⟩ := h.judged _ _ _ _ _ hphase
      have hid : node.id ≠ (RemoteNode.ofAddress sha3256 address port).id :=
        (hadds.accepts.mp rfl).1 node hnode
      refine ⟨hkept node hnode, hhardcoded, fun hping => ?_⟩
      simpa [reset, hid] using hfailed hping

theorem endContact {next : Health} {kind : Contact} {outcome : Outcome}
    {node : RemoteNode}
    (hnext : health.endContact kind outcome node = some next) :
    Tracked sha3256 bootstrapNodes next ∧ next.table = health.table := by
  rw [Health.endContact] at hnext
  split at hnext
  · cases hnext
  split at hnext
  · obtain rfl := Option.some.inj hnext
    refine ⟨⟨h.sound, h.counter_fail node.id, ?_⟩, rfl⟩
    intro bucket judged pinged before snapshot hphase
    obtain ⟨hjudged, hhardcoded, hfailed⟩ := h.judged _ _ _ _ _ hphase
    refine ⟨hjudged, hhardcoded, fun hping => ?_⟩
    obtain ⟨earlier, hbefore, hmore⟩ := hfailed hping
    exact ⟨earlier, hbefore,
      hmore.trans_le (failures_le_fail node.id judged.id)⟩
  · obtain rfl := Option.some.inj hnext
    exact ⟨h, rfl⟩

/-- The only nodes that leave are those judged dead. -/
theorem step {event : HealthEvent} {next : Health}
    (hstep : health.step sha3256 bootstrapNodes event = some next) :
    Tracked sha3256 bootstrapNodes next ∧
      ∀ node ∈ health.table.getNodes, node ∉ next.table.getNodes →
        ∃ uninitialized bucket pinged before snapshot,
          event = .judge uninitialized ∧
            health.phase = .judging bucket node pinged before snapshot ∧
            isDead (health.checkCounter node.id) = true := by
  cases event with
  | wake =>
      rw [Health.step] at hstep
      split at hstep
      case h_1 =>
        obtain rfl := Option.some.inj hstep
        exact ⟨h.withPhase nofun, fun _ hnode hgone => absurd hnode hgone⟩
      case h_2 => cases hstep
  | takeSnapshot =>
      rw [Health.step] at hstep
      split at hstep
      case h_1 =>
        obtain rfl := Option.some.inj hstep
        exact ⟨h.withPhase nofun, fun _ hnode hgone => absurd hnode hgone⟩
      case h_2 => cases hstep
  | leaveBucket =>
      rw [Health.step] at hstep
      split at hstep
      case h_1 =>
        obtain rfl := Option.some.inj hstep
        refine ⟨h.withPhase ?_, fun _ hnode hgone => absurd hnode hgone⟩
        intro bucket node pinged before snapshot hphase
        rw [nextBucket] at hphase
        split at hphase <;> cases hphase
      case h_2 => cases hstep
  | check pinged =>
      rw [Health.step] at hstep
      split at hstep
      case h_1 bucket node snapshot _ =>
        obtain rfl := Option.some.inj hstep
        refine ⟨h.checkNode bucket node snapshot pinged, ?_⟩
        intro other hother hgone
        rw [table_checkNode] at hgone
        exact absurd hother hgone
      case h_2 => cases hstep
  | judge uninitialized =>
      rw [Health.step] at hstep
      split at hstep
      case h_1 bucket node pinged before snapshot hphase =>
        obtain ⟨after, hafter, htracked, hdead, halive⟩ := h.judgeNode
          (h.judged _ _ _ _ _ hphase).1 uninitialized bucket snapshot
        obtain rfl := Option.some.inj (hafter.symm.trans hstep)
        refine ⟨htracked, fun other hother hgone => ?_⟩
        cases hjudged : isDead (health.checkCounter node.id) with
        | false =>
            rw [halive hjudged] at hgone
            exact absurd hother hgone
        | true =>
            obtain rfl : other = node := by
              by_contra hne
              exact hgone (mem_of_perm_cons (hdead hjudged) hother hne)
            exact ⟨uninitialized, bucket, pinged, before, snapshot, rfl, hphase,
              hjudged⟩
      case h_2 => cases hstep
  | addNode uninitialized address port =>
      obtain ⟨htracked, hkept⟩ := h.addRemoteNode hstep
      exact ⟨htracked, fun node hnode hgone => absurd (hkept node hnode) hgone⟩
  | contact kind outcome node =>
      obtain ⟨htracked, htable⟩ := h.endContact hstep
      refine ⟨htracked, fun other hother hgone => ?_⟩
      rw [htable] at hgone
      exact absurd hother hgone

theorem lawful : Lawful sha3256 bootstrapNodes health where
  removed event next hstep node hnode hgone := by
    obtain ⟨uninitialized, bucket, pinged, before, snapshot, hevent, hphase,
      hdead⟩ := (h.step hstep).2 node hnode hgone
    rw [h.counter] at hdead
    exact ⟨⟨uninitialized, bucket, pinged, before, snapshot, hevent, hphase⟩,
      maxHealthChecks_le_of_isDead hdead⟩
  dead bucket node before snapshot uninitialized hphase hbefore hbound := by
    obtain ⟨hnode, -, hfailed⟩ := h.judged _ _ _ _ _ hphase
    obtain ⟨earlier, hearlier, hmore⟩ := hfailed rfl
    rw [hearlier] at hbefore
    have hdead : isDead (health.checkCounter node.id) = true := by
      rw [h.counter]
      exact isDead_of_before hmore hbound hbefore
    obtain ⟨next, hnext, -, hremoved, -⟩ :=
      h.judgeNode hnode uninitialized bucket snapshot
    have hperm := (hremoved hdead).map RemoteNode.id
    have hnodup := hperm.nodup_iff.mp h.sound.nodup
    refine ⟨next, ?_, fun hkept => ?_⟩
    · rw [Health.step, hphase]
      exact hnext
    · exact (List.nodup_cons.mp hnodup).1 (List.mem_map_of_mem hkept)
  hardcoded event next hstep node hnode hhardcoded := by
    by_contra hgone
    obtain ⟨_, _, _, _, _, _, hphase, _⟩ := (h.step hstep).2 node hnode hgone
    rw [(h.judged _ _ _ _ _ hphase).2.1] at hhardcoded
    exact Bool.false_ne_true hhardcoded

end Tracked

theorem tracked_of_run (own : XorId) {events : List HealthEvent}
    (hrun : runFrom (step sha3256 bootstrapNodes) (start (.create own)) events =
      some health) : Tracked sha3256 bootstrapNodes health := by
  have hstart : Tracked sha3256 bootstrapNodes (start (.create own)) :=
    tracked_start (sound_create own)
  have hpreserved : ∀ health event next,
      Tracked sha3256 bootstrapNodes health →
      step sha3256 bootstrapNodes health event = some next →
      Tracked sha3256 bootstrapNodes next :=
    fun _ _ _ htracked hstep => (htracked.step hstep).1
  exact runFrom_invariant_of_step hpreserved hrun hstart

/-- Of every state that a run leads to from an empty table. -/
theorem heartbeat_lawful (own : XorId) {events : List HealthEvent}
    (hrun : runFrom (step sha3256 bootstrapNodes) (start (.create own)) events =
      some health) : Lawful sha3256 bootstrapNodes health :=
  (tracked_of_run own hrun).lawful

/-- Any number of contacts with a node can fail between two steps. -/
theorem tracked_contacts (h : Tracked sha3256 bootstrapNodes health)
    {node : RemoteNode} (hnode : node ∈ health.table.getNodes) (count : Nat) :
    ∃ next, runFrom (step sha3256 bootstrapNodes) health
        (List.replicate count (.contact .remove .silent node)) = some next ∧
      Tracked sha3256 bootstrapNodes next ∧ next.table = health.table ∧
      next.phase = health.phase ∧
      next.failures node.id = health.failures node.id + count := by
  induction count generalizing health with
  | zero => exact ⟨health, rfl, h, rfl, rfl, rfl⟩
  | succ count ih =>
      have hstep : health.endContact .remove .silent node =
          some (health.fail node.id) := by
        rw [endContact, if_neg (not_not_intro hnode)]
        rfl
      obtain ⟨next, hrun, htracked, htable, hphase, hfailures⟩ :=
        ih (h.endContact hstep).1 hnode
      refine ⟨next, ?_, htracked, htable, hphase, ?_⟩
      · rw [List.replicate_succ, runFrom_cons, step, hstep]
        exact hrun
      · rw [hfailures]
        simp only [fail, Function.update_self]
        omega

/-- The counter of the node is at the largest `int` when its ping fails. -/
theorem spared_at_limit (h : Tracked sha3256 bootstrapNodes health)
    {bucket : Fin 256} {node : RemoteNode} {snapshot : List RemoteNode}
    (hphase : health.phase = .checking bucket (node :: snapshot))
    (hnode : node ∈ health.table.getNodes)
    (hhardcoded : isHardcoded bootstrapNodes node = false)
    (hfew : health.failures node.id < 2 ^ 31) (uninitialized : XorId) :
    ∃ events judged next before,
      runFrom (step sha3256 bootstrapNodes) health events = some judged ∧
        judged.phase = .judging bucket node false before snapshot ∧
        isDead before = true ∧
        step sha3256 bootstrapNodes judged (.judge uninitialized) = some next ∧
        node ∈ next.table.getNodes := by
  obtain ⟨failed, hfailed, htracked, htable, hkept, hfailures⟩ :=
    tracked_contacts h hnode (2 ^ 31 - 1 - health.failures node.id)
  have hcounter : failed.checkCounter node.id = 2 ^ 31 - 1 := by
    have hall : failed.failures node.id = 2 ^ 31 - 1 := by omega
    rw [htracked.counter, hall]
    decide
  have hmem : node ∈ failed.table.getNodes := by rwa [htable]
  have hcheck : step sha3256 bootstrapNodes failed (.check false) =
      some { failed.fail node.id with
        phase := .judging bucket node false (2 ^ 31 - 1) snapshot } := by
    have hskip : ¬ (node ∉ failed.table.getNodes ∨
        isHardcoded bootstrapNodes node = true) := by
      simp [hmem, hhardcoded]
    rw [step, hkept, hphase]
    simp only [checkNode, if_neg hskip, hcounter]
    rfl
  have hjudge : isDead ((failed.fail node.id).checkCounter node.id) =
      false := by
    simp only [fail, Function.update_self, hcounter]
    decide
  refine ⟨List.replicate (2 ^ 31 - 1 - health.failures node.id)
      (.contact .remove .silent node) ++ [.check false],
    { failed.fail node.id with
      phase := .judging bucket node false (2 ^ 31 - 1) snapshot },
    { failed.fail node.id with phase := .checking bucket snapshot },
    2 ^ 31 - 1, ?_, rfl, by decide, ?_, hmem⟩
  · rw [runFrom_append, hfailed]
    rw [Option.bind_some, runFrom_cons, hcheck]
    rfl
  · change judgeNode _ _ _ _ _ = _
    rw [judgeNode, if_neg (Bool.not_eq_true _ ▸ hjudge)]

end Runs

/-! ## A node that answers, and one that is never removed -/

def peerHex : NodeIdHex where
  text := "9dee0a6e210ef0a874652762f30b3d870eed4fdb27d7f0d9abedab88c8910a8d"
  length := by decide +kernel
  digits := by decide +kernel

def peer : RemoteNode := .ofAddress (fun _ => peerHex) "peer.b32.i2p" 50881

def peerListed : List HealthEvent :=
  [.addNode XorId.zero "peer.b32.i2p" 50881, .wake, .takeSnapshot]

/-- The node answers its ping, and three other contacts fail before its counter
is looked at. -/
def lateFailures : List HealthEvent :=
  peerListed ++ [.check true, .contact .putReplacement .silent peer,
    .contact .remove .silent peer, .contact .getProviders .silent peer]

theorem heartbeat_lawful_late : ∃ health,
    runFrom (step (fun _ => peerHex) []) (start (.create ownHex.xorId))
        lateFailures = some health ∧
      Lawful (fun _ => peerHex) [] health := by
  obtain ⟨health, hrun⟩ : ∃ health, runFrom (step (fun _ => peerHex) [])
      (start (.create ownHex.xorId)) lateFailures = some health := ⟨_, rfl⟩
  exact ⟨health, hrun, heartbeat_lawful ownHex.xorId hrun⟩

/-- A node is removed that has answered its ping, and one whose counter was at
the limit when its ping failed is not removed. -/
theorem removed_or_spared :
    (∃ events health next,
      runFrom (step (fun _ => peerHex) []) (start (.create ownHex.xorId))
          events = some health ∧
        (∃ bucket before snapshot,
          health.phase = .judging bucket peer true before snapshot) ∧
        step (fun _ => peerHex) [] health (.judge XorId.zero) = some next ∧
        peer ∈ health.table.getNodes ∧ peer ∉ next.table.getNodes) ∧
    ∃ events health next,
      runFrom (step (fun _ => peerHex) []) (start (.create ownHex.xorId))
          events = some health ∧
        (∃ bucket before snapshot, isDead before = true ∧
          health.phase = .judging bucket peer false before snapshot) ∧
        step (fun _ => peerHex) [] health (.judge XorId.zero) = some next ∧
        peer ∈ next.table.getNodes := by
  constructor
  · refine ⟨lateFailures, _, _, rfl, ⟨_, _, _, rfl⟩, rfl, ?_, ?_⟩
    · decide
    · decide +kernel
  · obtain ⟨listed, hlisted, hphase, hmem, hfailures⟩ : ∃ listed,
        runFrom (step (fun _ => peerHex) []) (start (.create ownHex.xorId))
            peerListed = some listed ∧
          listed.phase = .checking 0 [peer] ∧ peer ∈ listed.table.getNodes ∧
          listed.failures peer.id = 0 := by
      refine ⟨_, rfl, rfl, ?_, ?_⟩
      · decide
      · decide
    have htracked : Tracked (fun _ => peerHex) [] listed :=
      tracked_of_run ownHex.xorId hlisted
    obtain ⟨events, judged, next, before, hrun, hjudged, hbefore, hnext, hkept⟩ :=
      spared_at_limit htracked hphase hmem rfl (by omega) XorId.zero
    refine ⟨peerListed ++ events, judged, next, ?_,
      ⟨0, before, [], hbefore, hjudged⟩, hnext, hkept⟩
    rw [runFrom_append, hlisted]
    exact hrun

end Health

end Neroshop.Node
