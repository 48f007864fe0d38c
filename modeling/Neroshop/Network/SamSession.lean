import Neroshop.Foundation.Contracts
import Neroshop.Network.SamReply

/-!
# Sessions over SAM

A node over I2P says hello to the bridge, restores its private key from a file
or has one generated and saves it, looks up what is public of it, and creates a
session with it.  The file is written where there is none, and never again.
-/

namespace Neroshop.Network

open Neroshop.Foundation Neroshop.Routing Neroshop.Tools

inductive SamSessionStyle where
  | stream
  | datagram
  | raw
  | datagram2
  | datagram3
  deriving DecidableEq

def getSessionStyleAsString : SamSessionStyle → List UInt8
  | .stream => chars "STREAM"
  | .datagram => chars "DATAGRAM"
  | .raw => chars "RAW"
  | .datagram2 | .datagram3 => []

structure SamClient where
  style : SamSessionStyle
  nickname : List UInt8
  clientPort : Nat
  sessionSocket : Int
  version : List UInt8
  privateKey : List UInt8
  publicKey : List UInt8
  i2pAddress : List Char
  deriving DecidableEq

/-- A client that is connected to the bridge. -/
def SamClient.init (style : SamSessionStyle) (nickname : List UInt8)
    (clientPort socket : Nat) : SamClient :=
  ⟨style, nickname, clientPort, socket, [], [], [], []⟩

/-- What becomes of reading and writing the file of the key. -/
structure KeyAccess where
  /-- The file, where there is one, opens for reading. -/
  reads : Bool
  /-- A new file opens for writing. -/
  opens : Bool
  /-- What of a text gets to the disk: the stream is not asked. -/
  kept : List UInt8 → List UInt8

structure SamWorld where
  client : SamClient
  keyFile : Option (List UInt8)
  /-- What is on the control socket. -/
  incoming : List UInt8
  /-- The commands given to `send`. -/
  asked : List (List UInt8)
  deriving DecidableEq

inductive SamEnd where
  | throws (fault : Fault)
  | exits
  deriving DecidableEq

abbrev SamCall := EStateM SamEnd SamWorld

def throwing {α : Type} (result : Except Fault α) : SamCall α :=
  MonadExcept.ofExcept (result.mapError SamEnd.throws)

def sendSamCommand (bridge : SamBridge) (command : List UInt8) :
    SamCall SamReply := do
  let world ← get
  if world.client.sessionSocket < 0 then throw (.throws .runtimeError)
  else
    let (reply, unread) := exchange bridge world.incoming command
    set { world with incoming := unread, asked := world.asked ++ [command] }
    return reply

def modifyClient (change : SamClient → SamClient) : SamCall Unit := do
  let world ← get
  set { world with client := change world.client }

/-! ## The key -/

/-- There is none where saving fails. -/
def saveKey (access : KeyAccess) (privateKey : List UInt8)
    (keyFile : Option (List UInt8)) : Option (List UInt8) :=
  if privateKey = [] then none
  else if keyFile.isSome then none
  else if !access.opens then none
  else some (access.kept privateKey)

def loadKey (access : KeyAccess) : Option (List UInt8) → List UInt8
  | none => []
  | some key => if access.reads then key else []

/-! ## Commands -/

def helloCommand : List UInt8 := chars "HELLO VERSION MIN=3.1 MAX=3.3\n"

def destGenerateCommand : List UInt8 :=
  chars "DEST GENERATE SIGNATURE_TYPE=7\n"

def namingLookupCommand (name : List UInt8) : List UInt8 :=
  chars "NAMING LOOKUP NAME=" ++ name ++ [newline]

def sessionCreateCommand (client : SamClient) : List UInt8 :=
  chars "SESSION CREATE STYLE=" ++ getSessionStyleAsString client.style ++
    chars " ID=" ++ client.nickname ++
    chars " DESTINATION=" ++ client.privateKey ++
    (if client.style = .datagram ∨ client.style = .raw then
      chars " PORT=" ++ decimal client.clientPort ++ chars " HOST=127.0.0.1" ++
        chars " i2cp.leaseSetEncType=4,0\n"
    else chars " i2cp.leaseSetEncType=4,0\n")

def sessionClose : SamCall Unit :=
  modifyClient fun client =>
    if 0 ≤ client.sessionSocket then { client with sessionSocket := -1 }
    else client

section Session

variable (env : SamEnvironment) (bridge : SamBridge) (access : KeyAccess)

def hello : SamCall SamReply := do
  let reply ← sendSamCommand bridge helloCommand
  let version ← throwing (getValue reply.rawReply (chars "VERSION"))
  modifyClient fun client => { client with version := version }
  return reply

/-- Where no key has been loaded. -/
def generateKey : SamCall Unit := do
  let reply ← sendSamCommand bridge destGenerateCommand
  let publicKey ← throwing (getValue reply.rawReply (chars "PUB"))
  modifyClient fun client => { client with publicKey := publicKey }
  let privateKey ← throwing (getValue reply.rawReply (chars "PRIV"))
  modifyClient fun client => { client with privateKey := privateKey }
  let world ← get
  match saveKey access privateKey world.keyFile with
  | none => throw (.throws .runtimeError)
  | some saved => set { world with keyFile := some saved }

/-- Where only the private key is there. -/
def lookUpPublicKey : SamCall Unit := do
  let world ← get
  let reply ← sendSamCommand bridge (namingLookupCommand world.client.privateKey)
  if reply.result ≠ .ok then do
    sessionClose
    throw .exits
  else
    let publicKey ← throwing (getValue reply.rawReply (chars "VALUE"))
    modifyClient fun client => { client with publicKey := publicKey }

def setAddress : SamCall Unit := do
  let world ← get
  let address ← throwing (toI2pAddress env world.client.publicKey)
  modifyClient fun client => { client with i2pAddress := address }

def sessionPrepare : SamCall Unit := do
  let world ← get
  if world.client.sessionSocket < 0 then throw (.throws .runtimeError)
  else
    let privateKey := loadKey access world.keyFile
    modifyClient fun client => { client with privateKey := privateKey }
    (if privateKey = [] then generateKey bridge access else pure ())
    let prepared ← get
    (if prepared.client.publicKey = [] then lookUpPublicKey bridge else pure ())
    setAddress env

def sessionCreate : SamCall Unit := do
  let world ← get
  if world.client.sessionSocket < 0 then throw (.throws .runtimeError)
  else
    let reply ← sendSamCommand bridge (sessionCreateCommand world.client)
    (if reply.result ≠ .ok then do
      sessionClose
      throw .exits
    else pure ())

/-- What the constructor of a node does over I2P. -/
def bringUp : SamCall Unit := do
  let _ ← hello bridge
  sessionPrepare env bridge access
  sessionCreate bridge

end Session

/-! ## Runs -/

/-- One start of the node. -/
structure SamStart where
  bridge : SamBridge
  access : KeyAccess
  nickname : List UInt8
  clientPort : Nat
  socket : Nat

def SamStart.world (start : SamStart) (keyFile : Option (List UInt8)) :
    SamWorld :=
  ⟨.init .datagram start.nickname start.clientPort start.socket, keyFile, [], []⟩

def SamStart.result (env : SamEnvironment) (start : SamStart)
    (keyFile : Option (List UInt8)) : EStateM.Result SamEnd SamWorld Unit :=
  (bringUp env start.bridge start.access).run (start.world keyFile)

def SamStart.leaves (env : SamEnvironment) (start : SamStart)
    (keyFile : Option (List UInt8)) : SamWorld :=
  stateAfter (bringUp env start.bridge start.access) (start.world keyFile)

/-- The node is started again and again, and finds the file as it was left. -/
def samStarts (env : SamEnvironment) :
    Option (List UInt8) → List SamStart → List (SamStart × Option (List UInt8))
  | _, [] => []
  | keyFile, start :: starts =>
      (start, keyFile) :: samStarts env (start.leaves env keyFile).keyFile starts

/-! ## Contracts of the calls that the others are made of -/

section Calls

variable {bridge : SamBridge} {pre fails : SamWorld → Prop}

theorem meets_sendSamCommand {command : List UInt8}
    {post : SamReply → SamWorld → Prop}
    (hpost : ∀ world, pre world → post (exchange bridge world.incoming command).1
      { world with
        incoming := (exchange bridge world.incoming command).2
        asked := world.asked ++ [command] })
    (hfails : ∀ world, pre world → world.client.sessionSocket < 0 → fails world) :
    Meets pre (sendSamCommand bridge command) post fails := by
  refine meets_get_bind fun world hworld => meets_ite (fun hclosed => ?_) fun _ => ?_
  · rintro _ rfl
    exact hfails _ hworld hclosed
  · rintro _ rfl
    exact hpost _ hworld

theorem meets_modifyClient {change : SamClient → SamClient}
    {post : PUnit → SamWorld → Prop}
    (h : ∀ world, pre world →
      post ⟨⟩ { world with client := change world.client }) :
    Meets pre (modifyClient change) post fails :=
  meets_get_bind fun world hworld => meets_set fun _ _ => h world hworld

theorem meets_throwing {α : Type} {result : Except Fault α}
    {post : α → SamWorld → Prop}
    (hok : ∀ value, result = .ok value → ∀ world, pre world → post value world)
    (herror : ∀ fault, result = .error fault →
      ∀ world, pre world → fails world) :
    Meets pre (throwing result) post fails := by
  cases result with
  | error fault => exact meets_throw (herror fault rfl)
  | ok value => exact meets_pure (hok value rfl)

theorem meets_sessionClose_exits {α : Type} {post : α → SamWorld → Prop}
    (h : ∀ (world : SamWorld) (client : SamClient), pre world →
      fails { world with client := client }) :
    Meets pre (do sessionClose; throw .exits) post fails :=
  Meets.bind (fun _ => fails)
    (meets_modifyClient fun world hworld => h world _ hworld)
    fun _ => meets_throw fun _ hfails => hfails

end Calls

/-! ## The key in the file -/

/-- What is asked of the bridge where the file holds the key. -/
def SpeaksOf (key command : List UInt8) : Prop :=
  command = helloCommand ∨ command = destGenerateCommand ∨
    key ≠ [] ∧ (command = namingLookupCommand key ∨
      ∃ client : SamClient, client.privateKey = key ∧
        command = sessionCreateCommand client)

structure Keeps (key : List UInt8) (world : SamWorld) : Prop where
  keyFile : world.keyFile = some key
  asked : ∀ command ∈ world.asked, SpeaksOf key command

/-- The session has the key from the file. -/
structure HasKey (key : List UInt8) (world : SamWorld) : Prop
    extends Keeps key world where
  privateKey : world.client.privateKey = key
  key_ne_nil : key ≠ []

section Key

variable {key : List UInt8} {env : SamEnvironment} {bridge : SamBridge}
  {access : KeyAccess}

theorem Keeps.ask {world : SamWorld} (h : Keeps key world)
    {command : List UInt8} (hspeaks : SpeaksOf key command)
    (incoming : List UInt8) :
    Keeps key { world with
      incoming := incoming, asked := world.asked ++ [command] } := by
  refine ⟨h.keyFile, fun other hother => ?_⟩
  rcases List.mem_append.mp hother with hmem | hmem
  · exact h.asked other hmem
  · rw [List.mem_singleton.mp hmem]
    exact hspeaks

theorem HasKey.ask {world : SamWorld} (h : HasKey key world)
    {command : List UInt8} (hspeaks : SpeaksOf key command)
    (incoming : List UInt8) :
    HasKey key { world with
      incoming := incoming, asked := world.asked ++ [command] } :=
  ⟨h.toKeeps.ask hspeaks incoming, h.privateKey, h.key_ne_nil⟩

theorem Keeps.withClient {world : SamWorld} (h : Keeps key world)
    (client : SamClient) : Keeps key { world with client := client } :=
  ⟨h.keyFile, h.asked⟩

theorem hello_keeps :
    Meets (Keeps key) (hello bridge) (fun _ => Keeps key) (Keeps key) := by
  refine Meets.bind (fun _ => Keeps key)
    (meets_sendSamCommand (fun world h => h.ask (.inl rfl) _) fun _ h _ => h)
    fun reply => ?_
  refine Meets.bind (fun _ => Keeps key)
    (meets_throwing (fun _ _ _ h => h) fun _ _ _ h => h) fun version => ?_
  exact Meets.bind (fun _ => Keeps key)
    (meets_modifyClient fun world h => h.withClient _)
    fun _ => meets_pure fun _ h => h

/-- The file is there, so that what is generated is not saved. -/
theorem generateKey_keeps :
    Meets (Keeps key) (generateKey bridge access) (fun _ _ => False)
      (Keeps key) := by
  refine Meets.bind (fun _ => Keeps key)
    (meets_sendSamCommand (fun world h => h.ask (.inr (.inl rfl)) _) fun _ h _ => h)
    fun reply => ?_
  refine Meets.bind (fun _ => Keeps key)
    (meets_throwing (fun _ _ _ h => h) fun _ _ _ h => h) fun publicKey => ?_
  refine Meets.bind (fun _ => Keeps key)
    (meets_modifyClient fun world h => h.withClient _) fun _ => ?_
  refine Meets.bind (fun _ => Keeps key)
    (meets_throwing (fun _ _ _ h => h) fun _ _ _ h => h) fun privateKey => ?_
  refine Meets.bind (fun _ => Keeps key)
    (meets_modifyClient fun world h => h.withClient _) fun _ => ?_
  refine meets_get_bind fun world hworld => ?_
  have hnone : saveKey access privateKey world.keyFile = none := by
    rw [hworld.keyFile]
    simp [saveKey]
  rw [hnone]
  refine meets_throw ?_
  rintro _ rfl
  exact hworld

theorem lookUpPublicKey_keeps :
    Meets (HasKey key) (lookUpPublicKey bridge) (fun _ => HasKey key)
      (Keeps key) := by
  refine meets_get_bind fun world hworld => ?_
  refine Meets.bind (fun _ => HasKey key)
    (meets_sendSamCommand ?_ ?_) fun reply => ?_
  · rintro _ rfl
    refine hworld.ask (.inr (.inr ⟨hworld.key_ne_nil, .inl ?_⟩)) _
    rw [hworld.privateKey]
  · rintro _ rfl -
    exact hworld.toKeeps
  · refine meets_ite (fun _ => ?_) fun _ => ?_
    · exact meets_sessionClose_exits fun world _ h => h.toKeeps.withClient _
    · exact Meets.bind (fun _ => HasKey key)
        (meets_throwing (fun _ _ _ h => h) fun _ _ _ h => h.toKeeps)
        fun _ => meets_modifyClient fun world h =>
          ⟨h.toKeeps.withClient _, h.privateKey, h.key_ne_nil⟩

theorem setAddress_keeps :
    Meets (HasKey key) (setAddress env) (fun _ => HasKey key) (Keeps key) := by
  refine meets_get_bind fun world hworld => ?_
  refine Meets.bind (fun _ => HasKey key)
    (meets_throwing ?_ ?_) fun address => ?_
  · rintro _ _ _ rfl
    exact hworld
  · rintro _ _ _ rfl
    exact hworld.toKeeps
  · exact meets_modifyClient fun world h =>
      ⟨h.toKeeps.withClient _, h.privateKey, h.key_ne_nil⟩

theorem sessionPrepare_keeps :
    Meets (Keeps key) (sessionPrepare env bridge access) (fun _ => HasKey key)
      (Keeps key) := by
  refine meets_get_bind fun world hworld => meets_ite (fun _ => ?_) fun _ => ?_
  · refine meets_throw ?_
    rintro _ rfl
    exact hworld
  · refine Meets.bind (fun _ after => Keeps key after ∧
        after.client.privateKey = loadKey access (some key))
      (meets_modifyClient ?_) fun _ => ?_
    · rintro _ rfl
      exact ⟨hworld.withClient _, by rw [hworld.keyFile]⟩
    · rw [hworld.keyFile]
      refine Meets.bind (fun _ => HasKey key) (meets_ite (fun _ => ?_)
        fun hne => ?_) fun _ => ?_
      · exact generateKey_keeps.mono (fun _ h => h.1) (fun _ _ h => h.elim)
          fun _ h => h
      · refine meets_pure fun after h => ?_
        have hload : loadKey access (some key) = key := by
          rw [loadKey] at hne ⊢
          split at hne
          case isTrue hreads => rw [if_pos hreads]
          case isFalse => exact absurd rfl hne
        rw [hload] at hne h
        exact ⟨h.1, h.2, hne⟩
      · refine meets_get_bind fun prepared hprepared => ?_
        refine Meets.bind (fun _ => HasKey key) (meets_ite (fun _ => ?_)
          fun _ => ?_) fun _ => setAddress_keeps
        · refine lookUpPublicKey_keeps.mono ?_ (fun _ _ h => h) fun _ h => h
          rintro _ rfl
          exact hprepared
        · refine meets_pure ?_
          rintro _ rfl
          exact hprepared

theorem sessionCreate_keeps :
    Meets (HasKey key) (sessionCreate bridge) (fun _ => HasKey key)
      (Keeps key) := by
  refine meets_get_bind fun world hworld => meets_ite (fun _ => ?_) fun _ => ?_
  · refine meets_throw ?_
    rintro _ rfl
    exact hworld.toKeeps
  · refine Meets.bind (fun _ => HasKey key)
      (meets_sendSamCommand ?_ ?_) fun reply => ?_
    · rintro _ rfl
      exact hworld.ask (.inr (.inr ⟨hworld.key_ne_nil,
        .inr ⟨_, hworld.privateKey, rfl⟩⟩)) _
    · rintro _ rfl -
      exact hworld.toKeeps
    · refine meets_ite (fun _ => ?_) fun _ => meets_pure fun _ h => h
      exact meets_sessionClose_exits fun world _ h => h.toKeeps.withClient _

theorem bringUp_keeps :
    Meets (Keeps key) (bringUp env bridge access) (fun _ => HasKey key)
      (Keeps key) :=
  hello_keeps.bind _ fun _ => sessionPrepare_keeps.bind _ fun _ => sessionCreate_keeps

theorem SamStart.keeps (start : SamStart) :
    Keeps key (start.leaves env (some key)) :=
  bringUp_keeps.stateAfter ⟨rfl, by simp [SamStart.world]⟩
    (fun _ _ h => h.toKeeps) fun _ h => h

theorem SamStart.hasKey {start : SamStart} {world : SamWorld}
    (h : start.result env (some key) = .ok () world) : HasKey key world :=
  bringUp_keeps.of_ok ⟨rfl, by simp [SamStart.world]⟩ h

theorem samStarts_found (starts : List SamStart) :
    ∀ entry ∈ samStarts env (some key) starts, entry.2 = some key := by
  induction starts with
  | nil => simp [samStarts]
  | cons start starts ih =>
      rw [samStarts, List.forall_mem_cons, start.keeps.keyFile]
      exact ⟨rfl, ih⟩

/-- Once there is a file, it is as it is: a node that is started again and again,
whatever the bridge does and the file allows, asks for sessions with the key in
it only, and for none if the file is empty. -/
theorem key_file_is_kept (starts : List SamStart) :
    ∀ entry ∈ samStarts env (some key) starts,
      entry.2 = some key ∧ Keeps key (entry.1.leaves env entry.2) ∧
        ∀ world, entry.1.result env entry.2 = .ok () world →
          key ≠ [] ∧ world.client.privateKey = key := by
  rintro ⟨start, keyFile⟩ hentry
  obtain rfl : keyFile = some key := samStarts_found starts _ hentry
  exact ⟨rfl, start.keeps, fun world hworld =>
    ⟨(SamStart.hasKey hworld).key_ne_nil, (SamStart.hasKey hworld).privateKey⟩⟩

end Key

/-- The bridge neither reads nor writes, and the key is in the file. -/
def SamStart.silent : SamStart where
  bridge _ := (.nothing, [])
  access := ⟨true, true, id⟩
  nickname := chars "neroshop"
  clientPort := 50881
  socket := 3

/-! ## A bridge with one pair of keys -/

def sampleReply (command : List UInt8) : List UInt8 :=
  match command.head? with
  | some 72 => chars "HELLO REPLY RESULT=OK VERSION=3.1"
  | some 68 => chars "DEST REPLY PUB=AAAA PRIV=KEY="
  | some 78 => chars "NAMING REPLY RESULT=OK NAME=ME VALUE=AAAA"
  | _ => chars "SESSION STATUS RESULT=OK DESTINATION=KEY="

def SamStart.sample : SamStart where
  bridge command := (.sent, sampleReply command ++ [newline])
  access := ⟨true, true, id⟩
  nickname := chars "neroshop"
  clientPort := 50881
  socket := 3

/-- A start over a bridge that is silent, one that comes up, and again a silent
one. -/
theorem sample_key_file_is_kept :
    (∃ world, SamStart.sample.result .sample (some (chars "KEY=")) = .ok () world ∧
        world.client.privateKey = chars "KEY=") ∧
      Keeps (chars "KEY=") (SamStart.sample.leaves .sample (some (chars "KEY="))) := by
  have hentry : (SamStart.sample, some (chars "KEY=")) ∈
      samStarts .sample (some (chars "KEY=")) [.silent, .sample, .silent] := by
    simp [samStarts, SamStart.silent.keeps.keyFile]
  obtain ⟨-, hkeeps, hup⟩ := key_file_is_kept _ _ hentry
  have hcomes : (SamStart.sample.result .sample (some (chars "KEY="))
      matches .ok () _) = true := by decide +kernel
  cases hresult : SamStart.sample.result .sample (some (chars "KEY=")) with
  | ok value world => exact ⟨⟨world, rfl, (hup world hresult).2⟩, hkeeps⟩
  | error ending world =>
      rw [hresult] at hcomes
      cases hcomes

end Neroshop.Network
