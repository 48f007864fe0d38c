import Neroshop.Network.SamSession

/-!
# The identity of a node over SAM

A bridge keeps to pairs of keys: what it generates is a pair, and it looks the
public one up for the private one.  Over such a bridge the first key that is
saved decides who the node is from then on.
-/

namespace Neroshop.Network

open Neroshop.Foundation Neroshop.Routing Neroshop.Tools

/-! ## A bridge that keeps to the pairs of keys -/

/-- What the public key of each private key is. -/
structure KeyPairs where
  IsKey : List UInt8 → Prop
  pubOf : List UInt8 → List UInt8
  ne_nil : ∀ key, IsKey key → key ≠ []

def bridgeLine (bridge : SamBridge) (command : List UInt8) : List UInt8 :=
  (readSamReply (bridge command).2).1

/-- It writes a line on a command that it has got, or nothing, and does not mix
up keys. -/
structure HonestBridge (pairs : KeyPairs) (bridge : SamBridge) : Prop where
  arrives : ∀ command, (bridge command).2 = [] ∨
    (bridge command).1 = .sent ∧
      ∃ line, newline ∉ line ∧ (bridge command).2 = line ++ [newline]
  generates : ∀ publicKey privateKey,
    getValue (bridgeLine bridge destGenerateCommand) (chars "PUB") =
      .ok publicKey →
    getValue (bridgeLine bridge destGenerateCommand) (chars "PRIV") =
      .ok privateKey →
    publicKey = pairs.pubOf privateKey
  looksUp : ∀ name publicKey,
    getResult (bridgeLine bridge (namingLookupCommand name)) = .ok →
    getValue (bridgeLine bridge (namingLookupCommand name)) (chars "VALUE") =
      .ok publicKey →
    publicKey = pairs.pubOf name

/-- Nothing stands in the way of a start. -/
structure Works (pairs : KeyPairs) (env : SamEnvironment) (bridge : SamBridge)
    (access : KeyAccess) (keyFile : Option (List UInt8)) : Prop where
  sent : ∀ command, (bridge command).1 = .sent
  hello : ∃ version,
    getValue (bridgeLine bridge helloCommand) (chars "VERSION") = .ok version
  generates : ∃ publicKey privateKey,
    getValue (bridgeLine bridge destGenerateCommand) (chars "PUB") =
      .ok publicKey ∧
    getValue (bridgeLine bridge destGenerateCommand) (chars "PRIV") =
      .ok privateKey ∧ pairs.IsKey privateKey
  looksUp : ∀ key, pairs.IsKey key →
    getResult (bridgeLine bridge (namingLookupCommand key)) = .ok ∧
      ∃ publicKey, getValue (bridgeLine bridge (namingLookupCommand key))
        (chars "VALUE") = .ok publicKey
  creates : ∀ client,
    getResult (bridgeLine bridge (sessionCreateCommand client)) = .ok
  decodes : ∀ key, pairs.IsKey key →
    ∃ address, toI2pAddress env (pairs.pubOf key) = .ok address
  reads : access.reads = true
  opens : access.opens = true
  keyFile : ∀ key, keyFile = some key → pairs.IsKey key

section Honest

variable {pairs : KeyPairs} {env : SamEnvironment} {bridge : SamBridge}
  {access : KeyAccess} {found : Option (List UInt8)}

/-- The socket is empty between the commands. -/
theorem HonestBridge.exchange (h : HonestBridge pairs bridge)
    (command : List UInt8) :
    (exchange bridge [] command).2 = [] ∧
      (exchange bridge [] command).1.rawReply = bridgeLine bridge command ∧
      ((exchange bridge [] command).1.result = .ok →
        getResult (bridgeLine bridge command) = .ok) ∧
      ((bridge command).1 = .sent → (exchange bridge [] command).1.result =
        getResult (bridgeLine bridge command)) := by
  rcases h.arrives command with hnothing | ⟨hsent, line, hline, harrived⟩
  · cases hsend : (bridge command).1 <;>
      simp [Network.exchange, bridgeLine, hsend, hnothing, readSamReply]
  · simp [Network.exchange, bridgeLine, hsent, harrived, readSamReply_line hline]

/-- A client that has read all that the bridge wrote. -/
structure Opened (world : SamWorld) : Prop where
  incoming : world.incoming = []
  socket : 0 ≤ world.client.sessionSocket

theorem Opened.ask {world : SamWorld} (h : Opened world)
    (hbridge : HonestBridge pairs bridge) (command : List UInt8) :
    Opened { world with
      incoming := (Network.exchange bridge world.incoming command).2
      asked := world.asked ++ [command] } :=
  ⟨by rw [h.incoming, (hbridge.exchange command).1], h.socket⟩

variable (found) in
/-- No key has been generated or loaded. -/
structure Begun (world : SamWorld) : Prop extends Opened world where
  keyFile : world.keyFile = found
  publicKey : world.client.publicKey = []

variable (pairs env bridge access found) in
/-- The private key is the one in the file. -/
structure Restored (world : SamWorld) : Prop extends Opened world where
  keyFile : world.keyFile = some world.client.privateKey
  isKey : Works pairs env bridge access found →
    pairs.IsKey world.client.privateKey

variable (pairs env bridge access found) in
structure LookedUp (world : SamWorld) : Prop
    extends Restored pairs env bridge access found world where
  publicKey : world.client.publicKey = pairs.pubOf world.client.privateKey

variable (pairs env bridge access found) in
structure Addressed (world : SamWorld) : Prop
    extends LookedUp pairs env bridge access found world where
  i2pAddress : toI2pAddress env (pairs.pubOf world.client.privateKey) =
    .ok world.client.i2pAddress

theorem hello_honest (hbridge : HonestBridge pairs bridge) :
    Meets (Begun found) (hello bridge) (fun _ => Begun found)
      (fun _ => ¬ Works pairs env bridge access found) := by
  refine Meets.bind (fun reply after => Begun found after ∧
    reply.rawReply = bridgeLine bridge helloCommand)
    (meets_sendSamCommand ?_ ?_) fun reply => ?_
  · intro world h
    refine ⟨⟨h.toOpened.ask hbridge _, h.keyFile, h.publicKey⟩, ?_⟩
    rw [h.incoming]
    exact (hbridge.exchange helloCommand).2.1
  · intro world h hclosed
    exact absurd h.socket (by omega)
  · refine Meets.bind (fun _ => Begun found)
      (meets_throwing (fun _ _ _ h => h.1) ?_) fun version => ?_
    · intro fault hfault world h hworks
      obtain ⟨version, hversion⟩ := hworks.hello
      rw [h.2, hversion] at hfault
      cases hfault
    · exact Meets.bind (fun _ => Begun found)
        (meets_modifyClient fun world h =>
          ⟨⟨h.incoming, h.socket⟩, h.keyFile, h.publicKey⟩)
        fun _ => meets_pure fun _ h => h

theorem generateKey_honest (hbridge : HonestBridge pairs bridge)
    (hkept : ∀ text, access.kept text = text)
    (hfound : Works pairs env bridge access found → found = none) :
    Meets (Begun found) (generateKey bridge access)
      (fun _ => LookedUp pairs env bridge access found)
      (fun _ => ¬ Works pairs env bridge access found) := by
  refine Meets.bind (fun reply after => Begun found after ∧
    reply.rawReply = bridgeLine bridge destGenerateCommand)
    (meets_sendSamCommand ?_ ?_) fun reply => ?_
  · intro world h
    refine ⟨⟨h.toOpened.ask hbridge _, h.keyFile, h.publicKey⟩, ?_⟩
    rw [h.incoming]
    exact (hbridge.exchange destGenerateCommand).2.1
  · intro world h hclosed
    exact absurd h.socket (by omega)
  refine Meets.bind (fun publicKey after => Begun found after ∧
    reply.rawReply = bridgeLine bridge destGenerateCommand ∧
      getValue reply.rawReply (chars "PUB") = .ok publicKey)
    (meets_throwing (fun _ hvalue _ h => ⟨h.1, h.2, hvalue⟩) ?_) fun publicKey => ?_
  · intro fault hfault world h hworks
    obtain ⟨_, _, hpub, -⟩ := hworks.generates
    rw [h.2, hpub] at hfault
    cases hfault
  refine Meets.bind (fun _ after => (Opened after ∧
      after.keyFile = found ∧ after.client.publicKey = publicKey) ∧
    reply.rawReply = bridgeLine bridge destGenerateCommand ∧
      getValue reply.rawReply (chars "PUB") = .ok publicKey)
    (meets_modifyClient fun world h =>
      ⟨⟨⟨h.1.incoming, h.1.socket⟩, h.1.keyFile, rfl⟩, h.2⟩) fun _ => ?_
  refine Meets.bind (fun privateKey after => (Opened after ∧
      after.keyFile = found ∧ after.client.publicKey = publicKey) ∧
    publicKey = pairs.pubOf privateKey ∧
      (Works pairs env bridge access found → pairs.IsKey privateKey))
    (meets_throwing ?_ ?_) fun privateKey => ?_
  · rintro privateKey hvalue world ⟨hworld, hline, hpub⟩
    rw [hline] at hpub hvalue
    refine ⟨hworld, hbridge.generates _ _ hpub hvalue, fun hworks => ?_⟩
    obtain ⟨_, key, -, hpriv, hkey⟩ := hworks.generates
    rw [hpriv] at hvalue
    cases hvalue
    exact hkey
  · rintro fault hfault world ⟨hworld, hline, hpub⟩ hworks
    obtain ⟨_, _, -, hpriv, -⟩ := hworks.generates
    rw [hline, hpriv] at hfault
    cases hfault
  refine Meets.bind (fun _ after => (Opened after ∧
      after.keyFile = found ∧ after.client.publicKey = publicKey ∧
      after.client.privateKey = privateKey) ∧
    publicKey = pairs.pubOf privateKey ∧
      (Works pairs env bridge access found → pairs.IsKey privateKey))
    (meets_modifyClient fun world h =>
      ⟨⟨⟨h.1.1.incoming, h.1.1.socket⟩, h.1.2.1, h.1.2.2, rfl⟩, h.2⟩) fun _ => ?_
  refine meets_get_bind fun world hworld => ?_
  obtain ⟨⟨hopened, hfile, hpublic, hprivate⟩, hpair, hkey⟩ := hworld
  cases hsave : saveKey access privateKey world.keyFile with
  | none =>
      refine meets_throw fun _ _ hworks => ?_
      rw [hfile, hfound hworks, saveKey, if_neg (pairs.ne_nil _ (hkey hworks)),
        if_neg (by simp), hworks.opens] at hsave
      simp at hsave
  | some saved =>
      refine meets_set fun _ _ => ?_
      have hsaved : saved = privateKey := by
        rw [saveKey] at hsave
        split at hsave
        · cases hsave
        · split at hsave
          · cases hsave
          · split at hsave
            · cases hsave
            · rw [hkept] at hsave
              exact (Option.some.inj hsave).symm
      subst hsaved
      rw [← hprivate] at hkey hpair
      exact ⟨⟨⟨hopened.incoming, hopened.socket⟩, by rw [hprivate], hkey⟩,
        hpublic.trans hpair⟩

theorem Restored.withPublicKey {world : SamWorld}
    (h : Restored pairs env bridge access found world) (publicKey : List UInt8) :
    Restored pairs env bridge access found
      { world with client := { world.client with publicKey := publicKey } } :=
  ⟨⟨h.incoming, h.socket⟩, h.keyFile, h.isKey⟩

theorem lookUpPublicKey_honest (hbridge : HonestBridge pairs bridge) :
    Meets (Restored pairs env bridge access found) (lookUpPublicKey bridge)
      (fun _ => LookedUp pairs env bridge access found)
      (fun _ => ¬ Works pairs env bridge access found) := by
  refine meets_get_bind fun world hworld => ?_
  obtain ⟨-, hraw, hok, hresult⟩ :=
    hbridge.exchange (namingLookupCommand world.client.privateKey)
  refine Meets.bind (fun reply after =>
      Restored pairs env bridge access found after ∧
      after.client.privateKey = world.client.privateKey ∧
      reply = (Network.exchange bridge []
        (namingLookupCommand world.client.privateKey)).1)
    (meets_sendSamCommand ?_ ?_) fun reply => meets_ite (fun hne => ?_) fun heq => ?_
  · rintro state rfl
    exact ⟨⟨hworld.toOpened.ask hbridge _, hworld.keyFile, hworld.isKey⟩, rfl,
      by rw [hworld.incoming]⟩
  · rintro state rfl hclosed
    exact absurd hworld.socket (by omega)
  · refine (@meets_sessionClose_exits (fun _ =>
        reply = (Network.exchange bridge []
          (namingLookupCommand world.client.privateKey)).1)
      (fun _ => ¬ Works pairs env bridge access found) _ _
      fun _ _ hreply hworks => ?_).mono (fun _ h => h.2.2) (fun _ _ h => h)
        fun _ h => h
    refine hne ?_
    rw [hreply, hresult (hworks.sent _)]
    exact (hworks.looksUp _ (hworld.isKey hworks)).1
  · rw [not_not] at heq
    refine Meets.bind (fun publicKey after =>
        Restored pairs env bridge access found after ∧
        publicKey = pairs.pubOf after.client.privateKey)
      (meets_throwing ?_ ?_) fun publicKey => ?_
    · rintro publicKey hvalue after ⟨hrestored, hsame, rfl⟩
      rw [hraw] at hvalue
      exact ⟨hrestored, hsame ▸ hbridge.looksUp _ _ (hok heq) hvalue⟩
    · rintro fault hfault after ⟨hrestored, hsame, rfl⟩ hworks
      obtain ⟨-, publicKey, hvalue⟩ := hworks.looksUp _ (hworld.isKey hworks)
      rw [hraw, hvalue] at hfault
      cases hfault
    · exact meets_modifyClient fun after h =>
        ⟨h.1.withPublicKey publicKey, h.2⟩

theorem setAddress_honest :
    Meets (LookedUp pairs env bridge access found) (setAddress env)
      (fun _ => Addressed pairs env bridge access found)
      (fun _ => ¬ Works pairs env bridge access found) := by
  refine meets_get_bind fun world hworld => ?_
  refine Meets.bind (fun address after =>
      LookedUp pairs env bridge access found after ∧
      toI2pAddress env after.client.publicKey = .ok address)
    (meets_throwing ?_ ?_) fun address => meets_modifyClient fun after h =>
      ⟨⟨⟨⟨h.1.incoming, h.1.socket⟩, h.1.keyFile, h.1.isKey⟩, h.1.publicKey⟩,
        h.1.publicKey ▸ h.2⟩
  · rintro address haddress state rfl
    exact ⟨hworld, haddress⟩
  · rintro fault hfault state rfl hworks
    obtain ⟨address, haddress⟩ := hworks.decodes _ (hworld.isKey hworks)
    rw [hworld.publicKey, haddress] at hfault
    cases hfault

theorem sessionPrepare_honest (hbridge : HonestBridge pairs bridge)
    (hkept : ∀ text, access.kept text = text) :
    Meets (Begun found) (sessionPrepare env bridge access)
      (fun _ => Addressed pairs env bridge access found)
      (fun _ => ¬ Works pairs env bridge access found) := by
  refine meets_get_bind fun world hworld => meets_ite (fun hclosed => ?_) fun _ => ?_
  · exact absurd hworld.socket (by omega)
  rw [hworld.keyFile]
  refine Meets.bind (fun _ after => Begun found after ∧
      after.client.privateKey = loadKey access found)
    (meets_modifyClient ?_) fun _ => ?_
  · rintro state rfl
    exact ⟨⟨⟨hworld.incoming, hworld.socket⟩, hworld.keyFile, hworld.publicKey⟩, rfl⟩
  refine Meets.bind (fun _ after =>
      Restored pairs env bridge access found after ∧
      (after.client.publicKey = [] ∨
        after.client.publicKey = pairs.pubOf after.client.privateKey))
    (meets_ite (fun hnone => ?_) fun hne => ?_) fun _ => ?_
  · refine (generateKey_honest hbridge hkept fun hworks => ?_).mono
      (fun _ h => h.1) (fun _ _ h => ⟨h.toRestored, .inr h.publicKey⟩) fun _ h => h
    cases found with
    | none => rfl
    | some key =>
        rw [loadKey, if_pos hworks.reads] at hnone
        exact absurd hnone (pairs.ne_nil key (hworks.keyFile key rfl))
  · refine meets_pure fun after hloaded => ?_
    obtain ⟨hafter, hprivate⟩ := hloaded
    cases found with
    | none => exact absurd rfl hne
    | some key =>
        have hkey : loadKey access (some key) = key := by
          rw [loadKey] at hne ⊢
          split at hne
          case isTrue hreads => rw [if_pos hreads]
          case isFalse => exact absurd rfl hne
        rw [hkey] at hprivate
        exact ⟨⟨hafter.toOpened, by rw [hafter.keyFile, hprivate],
          fun hworks => hprivate ▸ hworks.keyFile key rfl⟩, .inl hafter.publicKey⟩
  · refine meets_get_bind fun prepared hprepared => ?_
    refine Meets.bind (fun _ => LookedUp pairs env bridge access found)
      (meets_ite (fun _ => ?_) fun hne => meets_pure ?_) fun _ => setAddress_honest
    · refine (lookUpPublicKey_honest hbridge).mono ?_ (fun _ _ h => h) fun _ h => h
      rintro state rfl
      exact hprepared.1
    · rintro state rfl
      exact ⟨hprepared.1, hprepared.2.resolve_left hne⟩

theorem sessionCreate_honest (hbridge : HonestBridge pairs bridge) :
    Meets (Addressed pairs env bridge access found) (sessionCreate bridge)
      (fun _ => Addressed pairs env bridge access found)
      (fun _ => ¬ Works pairs env bridge access found) := by
  refine meets_get_bind fun world hworld => meets_ite (fun hclosed => ?_) fun _ => ?_
  · exact absurd hworld.socket (by omega)
  obtain ⟨-, -, -, hresult⟩ :=
    hbridge.exchange (sessionCreateCommand world.client)
  refine Meets.bind (fun reply after =>
      Addressed pairs env bridge access found after ∧
      reply = (Network.exchange bridge [] (sessionCreateCommand world.client)).1)
    (meets_sendSamCommand ?_ ?_) fun reply =>
      meets_ite (fun hne => ?_) fun _ => meets_pure fun _ h => h.1
  · rintro state rfl
    exact ⟨⟨⟨⟨hworld.toOpened.ask hbridge _, hworld.keyFile, hworld.isKey⟩,
      hworld.publicKey⟩, hworld.i2pAddress⟩, by rw [hworld.incoming]⟩
  · rintro state rfl hclosed
    exact absurd hworld.socket (by omega)
  · refine (@meets_sessionClose_exits (fun _ =>
        reply = (Network.exchange bridge [] (sessionCreateCommand world.client)).1)
      (fun _ => ¬ Works pairs env bridge access found) _ _
      fun _ _ hreply hworks => ?_).mono (fun _ h => h.2) (fun _ _ h => h)
        fun _ h => h
    refine hne ?_
    rw [hreply, hresult (hworks.sent _)]
    exact hworks.creates _

theorem bringUp_honest (hbridge : HonestBridge pairs bridge)
    (hkept : ∀ text, access.kept text = text) :
    Meets (Begun found) (bringUp env bridge access)
      (fun _ => Addressed pairs env bridge access found)
      (fun _ => ¬ Works pairs env bridge access found) :=
  (hello_honest hbridge).bind _ fun _ =>
    (sessionPrepare_honest hbridge hkept).bind _ fun _ =>
      sessionCreate_honest hbridge

end Honest

/-! ## Starting again and again -/

def SamClient.identity (client : SamClient) :
    List UInt8 × List UInt8 × List Char :=
  (client.privateKey, client.publicKey, client.i2pAddress)

/-- The bridge keeps to the pairs, and the disk takes what is written. -/
structure SamStart.Honest (pairs : KeyPairs) (start : SamStart) : Prop where
  bridge : HonestBridge pairs start.bridge
  kept : ∀ text, start.access.kept text = text

section Starts

variable {pairs : KeyPairs} {env : SamEnvironment} {start : SamStart}
  {found : Option (List UInt8)}

theorem SamStart.begun (start : SamStart) (found : Option (List UInt8)) :
    Begun found (start.world found) :=
  ⟨⟨rfl, Int.natCast_nonneg start.socket⟩, rfl, rfl⟩

theorem SamStart.addressed (h : start.Honest pairs) {world : SamWorld}
    (hrun : start.result env found = .ok () world) :
    Addressed pairs env start.bridge start.access found world :=
  (bringUp_honest h.bridge h.kept).of_ok (start.begun found) hrun

theorem SamStart.comesUp (h : start.Honest pairs)
    (hworks : Works pairs env start.bridge start.access found) :
    ∃ world, start.result env found = .ok () world := by
  have hmeets := @bringUp_honest _ env _ _ _ h.bridge h.kept _ (start.begun found)
  rw [SamStart.result]
  cases hrun : (bringUp env start.bridge start.access).run (start.world found) with
  | ok value world => exact ⟨world, rfl⟩
  | error ending world =>
      rw [hrun] at hmeets
      exact absurd hworks hmeets

theorem SamStart.leaves_of_ok {world : SamWorld}
    (hrun : start.result env found = .ok () world) :
    start.leaves env found = world := by
  rw [SamStart.result] at hrun
  rw [SamStart.leaves, stateAfter, hrun]

theorem Works.withFile {bridge : SamBridge} {access : KeyAccess}
    (h : Works pairs env bridge access none)
    (hfound : ∀ key, found = some key → pairs.IsKey key) :
    Works pairs env bridge access found :=
  ⟨h.sent, h.hello, h.generates, h.looksUp, h.creates, h.decodes, h.reads, h.opens,
    hfound⟩

/-- What a session that is up has of a key. -/
structure IdentifiedBy (pairs : KeyPairs) (env : SamEnvironment)
    (key : List UInt8) (client : SamClient) : Prop where
  privateKey : client.privateKey = key
  publicKey : client.publicKey = pairs.pubOf key
  i2pAddress : toI2pAddress env (pairs.pubOf key) = .ok client.i2pAddress

theorem SamStart.identifiedBy (h : start.Honest pairs) {world : SamWorld}
    (hrun : start.result env found = .ok () world) :
    IdentifiedBy pairs env world.client.privateKey world.client :=
  let haddressed := SamStart.addressed h hrun
  ⟨rfl, haddressed.publicKey, haddressed.i2pAddress⟩

theorem IdentifiedBy.identity_eq {key : List UInt8} {first second : SamClient}
    (hfirst : IdentifiedBy pairs env key first)
    (hsecond : IdentifiedBy pairs env key second) :
    first.identity = second.identity := by
  have haddress := hfirst.i2pAddress.symm.trans hsecond.i2pAddress
  rw [Except.ok.injEq] at haddress
  rw [SamClient.identity, SamClient.identity, hfirst.privateKey, hfirst.publicKey,
    hsecond.privateKey, hsecond.publicKey, haddress]

theorem mem_starts_of_mem_samStarts {starts : List SamStart}
    {entry : SamStart × Option (List UInt8)}
    (h : entry ∈ samStarts env found starts) : entry.1 ∈ starts := by
  induction starts generalizing found with
  | nil => cases h
  | cons start starts ih =>
      rw [samStarts] at h
      rcases List.mem_cons.mp h with rfl | htail
      · exact List.mem_cons_self
      · exact List.mem_cons_of_mem _ (ih htail)

variable (env) in
/-- The key of the file, or the first one that is saved. -/
theorem samStarts_common {starts : List SamStart}
    (hstarts : ∀ start ∈ starts, start.Honest pairs)
    (found : Option (List UInt8)) :
    ∃ key, (∀ stored, found = some stored → stored = key) ∧
      ∀ entry ∈ samStarts env found starts, ∀ world,
        entry.1.result env entry.2 = .ok () world →
          IdentifiedBy pairs env key world.client := by
  induction starts generalizing found with
  | nil => exact ⟨found.getD [], by rintro stored rfl; rfl, by simp [samStarts]⟩
  | cons start starts ih =>
      rw [List.forall_mem_cons] at hstarts
      have hwithKey : ∀ {key : List UInt8}, ∀ entry ∈ samStarts env (some key) starts,
          ∀ world, entry.1.result env entry.2 = .ok () world →
            IdentifiedBy pairs env key world.client := by
        intro key entry hentry world hworld
        have hstart := hstarts.2 _ (mem_starts_of_mem_samStarts hentry)
        rw [samStarts_found starts entry hentry] at hworld
        have hidentified := SamStart.identifiedBy hstart hworld
        rwa [(SamStart.hasKey hworld).privateKey] at hidentified
      cases found with
      | some key =>
          refine ⟨key, fun stored hstored => (Option.some.inj hstored).symm, ?_⟩
          rw [samStarts, List.forall_mem_cons, start.keeps.keyFile]
          refine ⟨fun world hworld => ?_, hwithKey⟩
          have hidentified := SamStart.identifiedBy hstarts.1 hworld
          rwa [(SamStart.hasKey hworld).privateKey] at hidentified
      | none =>
          cases hresult : start.result env none with
          | ok value world =>
              have haddressed := SamStart.addressed hstarts.1 hresult
              refine ⟨world.client.privateKey, by simp, ?_⟩
              rw [samStarts, List.forall_mem_cons, SamStart.leaves_of_ok hresult,
                haddressed.keyFile]
              refine ⟨fun other hother => ?_, hwithKey⟩
              rw [hresult] at hother
              cases hother
              exact SamStart.identifiedBy hstarts.1 hresult
          | error ending world =>
              obtain ⟨key, -, hkey⟩ := ih hstarts.2 (start.leaves env none).keyFile
              refine ⟨key, by simp, ?_⟩
              rw [samStarts, List.forall_mem_cons]
              refine ⟨fun other hother => ?_, hkey⟩
              rw [hresult] at hother
              cases hother

/-- However often the node is started, and whichever of its starts fail, the
sessions that come up have one private key, one public key and one address. -/
theorem sessions_share_identity {starts : List SamStart}
    (hstarts : ∀ start ∈ starts, start.Honest pairs)
    (found : Option (List UInt8)) :
    ∀ first ∈ samStarts env found starts, ∀ second ∈ samStarts env found starts,
      ∀ firstWorld secondWorld,
        first.1.result env first.2 = .ok () firstWorld →
        second.1.result env second.2 = .ok () secondWorld →
        firstWorld.client.identity = secondWorld.client.identity := by
  obtain ⟨key, -, hkey⟩ := samStarts_common env hstarts found
  intro first hfirst second hsecond firstWorld secondWorld hfirstRun hsecondRun
  exact (hkey first hfirst firstWorld hfirstRun).identity_eq
    (hkey second hsecond secondWorld hsecondRun)

/-- Where nothing stands in the way, every start comes up, with the key of the
file if there is one. -/
theorem every_start_comes_up {starts : List SamStart}
    (hstarts : ∀ start ∈ starts, start.Honest pairs)
    (hworks : ∀ start ∈ starts,
      Works pairs env start.bridge start.access none)
    (hfound : ∀ key, found = some key → pairs.IsKey key) :
    ∃ key, (∀ stored, found = some stored → stored = key) ∧
      ∀ entry ∈ samStarts env found starts,
        ∃ world, entry.1.result env entry.2 = .ok () world ∧
          IdentifiedBy pairs env key world.client := by
  obtain ⟨key, hstored, hkey⟩ := samStarts_common env hstarts found
  have hup : ∀ entry ∈ samStarts env found starts,
      ∃ world, entry.1.result env entry.2 = .ok () world := by
    clear hkey hstored
    induction starts generalizing found with
    | nil => simp [samStarts]
    | cons start starts ih =>
        rw [List.forall_mem_cons] at hstarts hworks
        have hhere := hworks.1.withFile hfound
        obtain ⟨world, hworld⟩ := SamStart.comesUp hstarts.1 hhere
        have haddressed := SamStart.addressed hstarts.1 hworld
        rw [samStarts, List.forall_mem_cons, SamStart.leaves_of_ok hworld]
        refine ⟨⟨world, hworld⟩, ih hstarts.2 hworks.2 fun stored hstored => ?_⟩
        rw [haddressed.keyFile] at hstored
        cases hstored
        exact haddressed.isKey hhere
  refine ⟨key, hstored, fun entry hentry => ?_⟩
  obtain ⟨world, hworld⟩ := hup entry hentry
  exact ⟨world, hworld, hkey entry hentry world hworld⟩

end Starts

/-! ## A bridge with one pair of keys -/

def KeyPairs.sample : KeyPairs where
  IsKey key := key = chars "KEY="
  pubOf _ := chars "AAAA"
  ne_nil := by
    rintro _ rfl
    decide

theorem newline_notMem_sampleReply (command : List UInt8) :
    newline ∉ sampleReply command := by
  rw [sampleReply]
  split <;> decide

theorem bridgeLine_sample (command : List UInt8) :
    bridgeLine SamStart.sample.bridge command = sampleReply command := by
  rw [bridgeLine]
  exact congrArg Prod.fst
    (readSamReply_line (newline_notMem_sampleReply command) [])

theorem sampleReply_namingLookup (name : List UInt8) :
    sampleReply (namingLookupCommand name) =
      chars "NAMING REPLY RESULT=OK NAME=ME VALUE=AAAA" := rfl

theorem sampleReply_sessionCreate (client : SamClient) :
    sampleReply (sessionCreateCommand client) =
      chars "SESSION STATUS RESULT=OK DESTINATION=KEY=" := rfl

theorem SamStart.sample_honest : SamStart.sample.Honest .sample where
  bridge :=
    { arrives := fun command => .inr ⟨rfl, sampleReply command,
        newline_notMem_sampleReply command, rfl⟩
      generates := fun publicKey privateKey hpub _ => by
        have hvalue : getValue (sampleReply destGenerateCommand) (chars "PUB") =
            .ok (chars "AAAA") := by decide
        rw [bridgeLine_sample, hvalue] at hpub
        exact (Except.ok.inj hpub).symm
      looksUp := fun name publicKey _ hpub => by
        have hvalue : getValue (chars "NAMING REPLY RESULT=OK NAME=ME VALUE=AAAA")
            (chars "VALUE") = .ok (chars "AAAA") := by decide
        rw [bridgeLine_sample, sampleReply_namingLookup, hvalue] at hpub
        exact (Except.ok.inj hpub).symm }
  kept := fun _ => rfl

theorem SamStart.sample_works :
    Works .sample .sample SamStart.sample.bridge SamStart.sample.access none where
  sent := fun _ => rfl
  hello := ⟨chars "3.1", by rw [bridgeLine_sample]; decide⟩
  generates := ⟨chars "AAAA", chars "KEY=", by rw [bridgeLine_sample]; decide,
    by rw [bridgeLine_sample]; decide, rfl⟩
  looksUp := fun key _ => by
    rw [bridgeLine_sample, sampleReply_namingLookup]
    exact ⟨by decide, chars "AAAA", by decide⟩
  creates := fun client => by
    rw [bridgeLine_sample, sampleReply_sessionCreate]
    decide
  decodes := fun _ _ => toI2pAddress_of_decoded
    (show SamEnvironment.sample.bioRead ((chars "AAAA").map fixBase64) 1024 =
      some [0, 0, 0] by decide)
  reads := rfl
  opens := rfl
  keyFile := fun _ h => by cases h

theorem sample_sessions_share_identity :
    ∃ firstWorld secondWorld,
      SamStart.sample.result .sample none = .ok () firstWorld ∧
        SamStart.sample.result .sample firstWorld.keyFile = .ok () secondWorld ∧
        firstWorld.client.identity = secondWorld.client.identity := by
  have hhonest := SamStart.sample_honest
  have hworks := SamStart.sample_works
  obtain ⟨firstWorld, hfirst⟩ := SamStart.comesUp hhonest hworks
  have haddressed := SamStart.addressed hhonest hfirst
  have hkey : ∀ key, firstWorld.keyFile = some key →
      KeyPairs.sample.IsKey key := by
    intro key hkey
    cases haddressed.keyFile.symm.trans hkey
    exact haddressed.isKey hworks
  obtain ⟨secondWorld, hsecond⟩ := SamStart.comesUp hhonest (hworks.withFile hkey)
  have hhonests : ∀ start ∈ [SamStart.sample, .sample],
      start.Honest .sample := by simp [hhonest]
  have hstarts : (SamStart.sample, firstWorld.keyFile) ∈
      samStarts .sample none [.sample, .sample] := by
    simp [samStarts, SamStart.leaves_of_ok hfirst]
  exact ⟨firstWorld, secondWorld, hfirst, hsecond,
    sessions_share_identity hhonests none _ List.mem_cons_self _ hstarts _ _ hfirst
      hsecond⟩

theorem sample_every_start_comes_up :
    ∃ key, (∀ stored, none = some stored → stored = key) ∧
      ∀ entry ∈ samStarts .sample none [.sample, .sample],
        ∃ world, entry.1.result .sample entry.2 = .ok () world ∧
          IdentifiedBy .sample .sample key world.client :=
  every_start_comes_up (by simp [SamStart.sample_honest])
    (by simp [SamStart.sample_works]) (by simp)

end Neroshop.Network
